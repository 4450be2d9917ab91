import StackLang.Proofs.Machine.Run

/-!
# What an instruction touches

An instruction that succeeds takes some operands off the top of the stack, puts others there, writes
some lines and goes on at some address.  That is its `Machine.Effect`, and `Machine.Acts` lists the
effects that an instruction can have.  Whether it has one of them depends on the operands it takes
and on nothing below them, and on the writer only in that this has to take the lines.  `exec_eq_iff`
says that `Machine.exec` succeeds in just these ways, so what holds of every effect holds of every
instruction; `step_cases` is the same for a step.

Since nothing below the operands matters, a run goes on in the same way over any operands that lie
below those it starts with (`steps_above_base`).

`Machine.Fails` lists in turn how an instruction can fault, and `step_fault_cases` says that a step
faults in no other way.
-/

set_option autoImplicit false

namespace StackLang

/-! ## Several writes -/

section Writer

variable {σ ε : Type} [Writer σ ε]

/-- Write one text after the other, unless one of them is not taken. -/
def Writer.writeAll? (k : σ) : List String → Option σ
  | [] => some k
  | s :: rest =>
    match Writer.write k s with
    | (k', none) => Writer.writeAll? k' rest
    | (_, some _) => none

namespace Writer

theorem writeAll?_cons {k k' : σ} {s : String} (h : write k s = (k', none))
    (rest : List String) : writeAll? k (s :: rest) = writeAll? k' rest := by
  rw [writeAll?, h]

theorem writeAll?_singleton {k k' : σ} {s : String} :
    writeAll? k [s] = some k' ↔ write k s = (k', none) := by
  rw [writeAll?]
  rcases write k s with ⟨k₁, _ | e⟩ <;> simp [writeAll?]

theorem writeAll?_append (k : σ) (l₁ l₂ : List String) :
    writeAll? k (l₁ ++ l₂) = (writeAll? k l₁).bind (writeAll? · l₂) := by
  induction l₁ generalizing k with
  | nil => rfl
  | cons s rest ih =>
    rw [List.cons_append, writeAll?, writeAll?]
    rcases write k s with ⟨k₁, _ | e⟩
    · exact ih k₁
    · rfl

theorem writeAll?_buffer (text : String) (lines : List String) :
    writeAll? (Sink.buffer text) lines = some (.buffer (text ++ String.join lines)) := by
  induction lines generalizing text with
  | nil => simp [writeAll?]
  | cons s rest ih => rw [writeAll?_cons rfl, ih, String.join_cons, String.append_assoc]

end Writer

end Writer

/-! ## Effects -/

/-- The value that an instruction pushes, if it does nothing else. -/
def Instr.pushed? (i : Instr) : Option Int64 :=
  match i.op with
  | .push => some i.imm
  | .pushTrue => some 1
  | .pushFalse => some 0
  | .mem => some memoryBase
  | _ => none

/-- The function of the lower and the topmost operand that an operation replaces them by. -/
def Op.combined? : Op → Option (Int64 → Int64 → Int64)
  | plus => some fun b a => b + a
  | minus => some fun b a => b - a
  | equal => some fun b a => Machine.truth (b == a)
  | greater => some fun b a => Machine.truth (decide (a < b))
  | _ => none

namespace Machine

/-- What an instruction does. -/
structure Effect where
  /-- The operands it takes, topmost first. -/
  taken : List Int64 := []
  /-- The operands it puts in their place. -/
  put : List Int64 := []
  /-- The texts it writes. -/
  lines : List String := []
  /-- The address where it goes on. -/
  next : Nat

/-- What the instruction `i` at address `ip` of a program of length `size` can do. -/
inductive Acts (i : Instr) (ip size : Nat) : Effect → Prop
  | push {v : Int64} : i.pushed? = some v → Acts i ip size { put := [v], next := ip + 1 }
  | combine {f : Int64 → Int64 → Int64} {a b : Int64} :
      i.op.combined? = some f →
      Acts i ip size { taken := [a, b], put := [f b a], next := ip + 1 }
  | dupl {a : Int64} :
      i.op = .dupl → Acts i ip size { taken := [a], put := [a, a], next := ip + 1 }
  | dump {a : Int64} :
      i.op = .dump →
      Acts i ip size { taken := [a], lines := [toString a ++ "\n"], next := ip + 1 }
  | loop : i.op = .loop → Acts i ip size { next := ip + 1 }
  | jump {z : Nat} :
      i.op = .otherwise ∨ i.op = .close → i.imm.toInt = z → z ≤ size → Acts i ip size { next := z }
  | zero {z : Nat} :
      i.op = .branch ∨ i.op = .body → i.imm.toInt = z → z ≤ size →
      Acts i ip size { taken := [0], next := z }
  | nonzero {a : Int64} :
      i.op = .branch ∨ i.op = .body → a ≠ 0 → Acts i ip size { taken := [a], next := ip + 1 }

variable {σ ε : Type} [Writer σ ε] {m m' : Machine σ} {i : Instr} {e : Effect} {n : Nat}

/-- The effect `e` takes `m` to `m'`.  Its operands have to be there, and its lines to be taken. -/
def Does (m : Machine σ) (e : Effect) (m' : Machine σ) : Prop :=
  ∃ rest out, m.stack = e.taken ++ rest ∧ Writer.writeAll? m.out e.lines = some out ∧
    m' = { m with ip := e.next, stack := e.put ++ rest, out := out }

/-! ## The operations, one by one -/

theorem pushing_iff {v : Int64} :
    m.pushing v = (m', none) ↔ m.Does { put := [v], next := m.ip + 1 } m' := by
  constructor
  · rintro ⟨⟩
    exact ⟨m.stack, m.out, rfl, rfl, rfl⟩
  · rintro ⟨rest, out, hstack, hout, rfl⟩
    cases hout
    rw [pushing, hstack]
    rfl

theorem advance_iff : (m.advance, none) = (m', (none : Option (FaultCause ε))) ↔
    m.Does { next := m.ip + 1 } m' := by
  constructor
  · rintro ⟨⟩
    exact ⟨m.stack, m.out, rfl, rfl, rfl⟩
  · rintro ⟨rest, out, hstack, hout, rfl⟩
    cases hout
    rw [advance, ← show m.stack = rest from hstack]
    rfl

theorem binary_iff {f : Int64 → Int64 → Int64} :
    m.binary f = (m', none) ↔
      ∃ a b, m.Does { taken := [a, b], put := [f b a], next := m.ip + 1 } m' := by
  constructor
  · intro h
    rw [binary] at h
    split at h
    · rename_i a b rest hstack
      cases h
      exact ⟨a, b, rest, m.out, hstack, rfl, rfl⟩
    · cases h
  · rintro ⟨a, b, rest, out, hstack, hout, rfl⟩
    cases hout
    rw [binary, show m.stack = a :: b :: rest from hstack]
    rfl

theorem duplicate_iff :
    m.duplicate = (m', none) ↔
      ∃ a, m.Does { taken := [a], put := [a, a], next := m.ip + 1 } m' := by
  constructor
  · intro h
    rw [duplicate] at h
    split at h
    · cases h
    · rename_i a rest hstack
      cases h
      exact ⟨a, rest, m.out, hstack, rfl, rfl⟩
  · rintro ⟨a, rest, out, hstack, hout, rfl⟩
    cases hout
    rw [duplicate, show m.stack = a :: rest from hstack]
    rfl

theorem dump_iff :
    m.dump = (m', none) ↔
      ∃ a, m.Does { taken := [a], lines := [toString a ++ "\n"], next := m.ip + 1 } m' := by
  obtain ⟨code, ip, stack, memory, out, steps⟩ := m
  constructor
  · intro h
    obtain _ | ⟨a, rest⟩ := stack
    · cases h
    · rw [dump] at h
      rcases hw : Writer.write out (toString a ++ "\n") with ⟨out', _ | e⟩ <;> rw [hw] at h <;>
        cases h
      exact ⟨a, rest, out', rfl, Writer.writeAll?_singleton.2 hw, rfl⟩
  · rintro ⟨a, rest, out', hstack, hout, rfl⟩
    cases hstack
    rw [dump, Writer.writeAll?_singleton.1 hout]
    rfl

theorem jump_iff {target : Int64} :
    m.jump target = (m', none) ↔
      ∃ z : Nat, target.toInt = z ∧ z ≤ m.code.size ∧ m.Does { next := z } m' := by
  constructor
  · intro h
    rw [jump] at h
    split at h
    · rename_i hin
      cases h
      exact ⟨target.toInt.toNat, by omega, by omega, m.stack, m.out, rfl, rfl, rfl⟩
    · cases h
  · rintro ⟨z, hz, hle, rest, out, hstack, hout, rfl⟩
    cases hout
    rw [jump, hz, if_pos (by omega), ← show m.stack = rest from hstack]
    rfl

/-- Taking the topmost operand and going on is going on without it. -/
theorem does_pop_iff {a b : Int64} {rest : List Int64} (h : m.stack = a :: rest) :
    m.Does { taken := [b], next := n } m' ↔
      b = a ∧ ({ m with stack := rest } : Machine σ).Does { next := n } m' := by
  constructor
  · rintro ⟨rest', out, hstack, hout, rfl⟩
    obtain ⟨rfl, rfl⟩ := List.cons.inj (h.symm.trans hstack)
    exact ⟨rfl, rest, out, rfl, hout, rfl⟩
  · rintro ⟨rfl, rest', out, hstack, hout, rfl⟩
    exact ⟨rest', out, h.trans (congrArg (b :: ·) hstack), hout, rfl⟩

theorem jumpUnless_iff {target : Int64} :
    m.jumpUnless target = (m', none) ↔
      (∃ z : Nat, target.toInt = z ∧ z ≤ m.code.size ∧ m.Does { taken := [0], next := z } m') ∨
        ∃ a, a ≠ 0 ∧ m.Does { taken := [a], next := m.ip + 1 } m' := by
  rcases hstack : m.stack with _ | ⟨a, rest⟩
  · simp [jumpUnless, Does, hstack]
  · simp only [does_pop_iff hstack]
    -- what is left is a jump, or going on, of the machine without the condition
    by_cases ha : a = 0
    · subst ha
      have hjump : m.jumpUnless target = ({ m with stack := rest } : Machine σ).jump target := by
        rw [jumpUnless, hstack]
        rfl
      rw [hjump, jump_iff]
      constructor
      · rintro ⟨z, hz, hle, hdoes⟩
        exact .inl ⟨z, hz, hle, rfl, hdoes⟩
      · rintro (⟨z, hz, hle, -, hdoes⟩ | ⟨a, hne, rfl, -⟩)
        · exact ⟨z, hz, hle, hdoes⟩
        · exact absurd rfl hne
    · have hgo : m.jumpUnless target = (({ m with stack := rest } : Machine σ).advance, none) := by
        rw [jumpUnless, hstack]
        simp [ha]
      rw [hgo, advance_iff]
      constructor
      · intro hdoes
        exact .inr ⟨a, ha, rfl, hdoes⟩
      · rintro (⟨z, -, -, rfl, -⟩ | ⟨a, -, rfl, hdoes⟩)
        · exact absurd rfl ha
        · exact hdoes

/-! ## Single instructions -/

theorem exec_pushed {v : Int64} (h : i.pushed? = some v) : m.exec i = m.pushing v := by
  obtain ⟨op, imm⟩ := i
  cases op <;> cases h <;> rfl

theorem exec_combined {f : Int64 → Int64 → Int64} (h : i.op.combined? = some f) :
    m.exec i = m.binary f := by
  obtain ⟨op, imm⟩ := i
  cases op <;> cases h <;> rfl

theorem exec_condition (h : i.op = .branch ∨ i.op = .body) :
    m.exec i = m.jumpUnless i.imm := by
  rcases h with h | h <;> rw [exec, h]

theorem exec_goto (h : i.op = .otherwise ∨ i.op = .close) : m.exec i = m.jump i.imm := by
  rcases h with h | h <;> rw [exec, h]

theorem exists_acts_of_exec (h : m.exec i = (m', none)) :
    ∃ e, Acts i m.ip m.code.size e ∧ m.Does e m' := by
  cases hop : i.op with
  | push | pushTrue | pushFalse | mem =>
    have hv : ∃ v, i.pushed? = some v := by simp [Instr.pushed?, hop]
    obtain ⟨v, hv⟩ := hv
    rw [exec_pushed hv, pushing_iff] at h
    exact ⟨_, .push hv, h⟩
  | plus | minus | equal | greater =>
    have hf : ∃ f, i.op.combined? = some f := by simp [Op.combined?, hop]
    obtain ⟨f, hf⟩ := hf
    rw [exec_combined hf, binary_iff] at h
    obtain ⟨a, b, hdoes⟩ := h
    exact ⟨_, .combine hf, hdoes⟩
  | dupl =>
    rw [exec, hop] at h
    obtain ⟨a, hdoes⟩ := duplicate_iff.1 h
    exact ⟨_, .dupl hop, hdoes⟩
  | dump =>
    rw [exec, hop] at h
    obtain ⟨a, hdoes⟩ := dump_iff.1 h
    exact ⟨_, .dump hop, hdoes⟩
  | loop =>
    rw [exec, hop] at h
    exact ⟨_, .loop hop, advance_iff.1 h⟩
  | branch | body =>
    have hcond : i.op = .branch ∨ i.op = .body := by simp [hop]
    rw [exec_condition hcond, jumpUnless_iff] at h
    obtain ⟨z, hz, hle, hdoes⟩ | ⟨a, ha, hdoes⟩ := h
    · exact ⟨_, .zero hcond hz hle, hdoes⟩
    · exact ⟨_, .nonzero hcond ha, hdoes⟩
  | otherwise | close =>
    have hgoto : i.op = .otherwise ∨ i.op = .close := by simp [hop]
    rw [exec_goto hgoto, jump_iff] at h
    obtain ⟨z, hz, hle, hdoes⟩ := h
    exact ⟨_, .jump hgoto hz hle, hdoes⟩
  | undefined k =>
    rw [exec, hop] at h
    cases h

theorem exec_of_acts (hacts : Acts i m.ip m.code.size e) (hdoes : m.Does e m') :
    m.exec i = (m', none) := by
  cases hacts with
  | push hv => rw [exec_pushed hv, pushing_iff]; exact hdoes
  | combine hf => rw [exec_combined hf, binary_iff]; exact ⟨_, _, hdoes⟩
  | dupl hop => rw [exec, hop]; exact duplicate_iff.2 ⟨_, hdoes⟩
  | dump hop => rw [exec, hop]; exact dump_iff.2 ⟨_, hdoes⟩
  | loop hop => rw [exec, hop]; exact advance_iff.2 hdoes
  | jump hop hz hle => rw [exec_goto hop, jump_iff]; exact ⟨_, hz, hle, hdoes⟩
  | zero hop hz hle => rw [exec_condition hop, jumpUnless_iff]; exact .inl ⟨_, hz, hle, hdoes⟩
  | nonzero hop ha => rw [exec_condition hop, jumpUnless_iff]; exact .inr ⟨_, ha, hdoes⟩

/-- **An instruction succeeds exactly by one of its effects.** -/
theorem exec_eq_iff :
    m.exec i = (m', none) ↔ ∃ e, Acts i m.ip m.code.size e ∧ m.Does e m' :=
  ⟨exists_acts_of_exec, fun ⟨_, hacts, hdoes⟩ => exec_of_acts hacts hdoes⟩

/-- What a step that succeeds can do: nothing, if the machine has halted, and else an effect of its
instruction. -/
theorem step_cases (h : m.step = (m', none)) :
    (m.halted = true ∧ m' = m) ∨
      ∃ i e m₁, m.next? = some i ∧ Acts i m.ip m.code.size e ∧ m.Does e m₁ ∧
        m' = { m₁ with steps := m₁.steps + 1 } := by
  cases hi : m.next? with
  | none =>
    have hm := halted_iff.2 hi
    cases (step_of_halted hm).symm.trans h
    exact .inl ⟨hm, rfl⟩
  | some i =>
    rcases hexec : m.exec i with ⟨m₁, _ | c⟩
    · obtain ⟨e, hacts, hdoes⟩ := exec_eq_iff.1 hexec
      cases (step_eq hi hexec).symm.trans h
      exact .inr ⟨i, e, m₁, rfl, hacts, hdoes, rfl⟩
    · cases (step_eq_fault hi hexec).symm.trans h

theorem step_of_acts (hi : m.next? = some i) (hacts : Acts i m.ip m.code.size e)
    (hdoes : m.Does e m') : m.step = ({ m' with steps := m'.steps + 1 }, none) :=
  step_eq hi (exec_of_acts hacts hdoes)

theorem code_of_step (h : m.step = (m', none)) : m'.code = m.code := by
  obtain ⟨-, rfl⟩ | ⟨i, e, m₁, -, -, ⟨rest, out, -, -, rfl⟩, rfl⟩ := step_cases h
  · rfl
  · rfl

theorem code_of_stepTimes (h : stepTimes n m = some m') : m'.code = m.code := by
  induction n generalizing m with
  | zero =>
    cases h
    rfl
  | succ n ih =>
    obtain ⟨m₁, hs, hrest⟩ := exists_of_stepTimes_succ h
    exact (ih hrest).trans (code_of_step hs)

/-! ## More operands below

The operands an effect takes are on top, so it does not matter what lies below the others. -/

/-- The machine with more operands below those it has, and with another writer. -/
def above {τ : Type} (m : Machine σ) (base : List Int64) (k : τ) : Machine τ :=
  { m with stack := m.stack ++ base, out := k }

theorem Does.above {τ δ : Type} [Writer τ δ] (h : m.Does e m') (base : List Int64) {k k' : τ}
    (hk : Writer.writeAll? k e.lines = some k') : (m.above base k).Does e (m'.above base k') := by
  obtain ⟨rest, out, hstack, -, rfl⟩ := h
  refine ⟨rest ++ base, k', ?_, hk, ?_⟩
  · simp [Machine.above, hstack]
  · simp [Machine.above]

theorem Does.out_eq (h : m.Does e m') : Writer.writeAll? m.out e.lines = some m'.out := by
  obtain ⟨rest, out, -, hout, rfl⟩ := h
  exact hout

/-- A step writes some lines, and is the same step over any operands and with any writer that takes
these lines. -/
theorem step_above (h : m.step = (m', none)) :
    ∃ lines, Writer.writeAll? m.out lines = some m'.out ∧
      ∀ {τ δ : Type} [Writer τ δ] (base : List Int64) (k k' : τ),
        Writer.writeAll? k lines = some k' →
        (m.above base k).step = (m'.above base k', none) := by
  obtain ⟨hm, rfl⟩ | ⟨i, e, m₁, hi, hacts, hdoes, rfl⟩ := step_cases h
  · -- whether a machine has halted does not depend on its operands
    refine ⟨[], rfl, ?_⟩
    intro τ δ _ base k k' hk
    cases hk
    exact step_of_halted (m := m'.above base k) hm
  · refine ⟨e.lines, hdoes.out_eq, ?_⟩
    intro τ δ _ base k k' hk
    exact step_of_acts (m := m.above base k) hi hacts (hdoes.above base hk)

/-- **Steps that succeed are the same steps over any operands.** -/
theorem stepTimes_above (h : stepTimes n m = some m') :
    ∃ lines, Writer.writeAll? m.out lines = some m'.out ∧
      ∀ {τ δ : Type} [Writer τ δ] (base : List Int64) (k k' : τ),
        Writer.writeAll? k lines = some k' →
        stepTimes n (m.above base k) = some (m'.above base k') := by
  induction n generalizing m with
  | zero =>
    cases h
    refine ⟨[], rfl, ?_⟩
    intro τ δ _ base k k' hk
    cases hk
    rfl
  | succ n ih =>
    obtain ⟨m₁, hs, hrest⟩ := exists_of_stepTimes_succ h
    obtain ⟨first, hfirst, hstep⟩ := step_above hs
    obtain ⟨later, hlater, hrun⟩ := ih hrest
    -- a writer that takes all lines takes the first ones, and then takes the later ones
    refine ⟨first ++ later, ?_, ?_⟩
    · rw [Writer.writeAll?_append, hfirst]
      exact hlater
    · intro τ δ _ base k k' hk
      rw [Writer.writeAll?_append] at hk
      obtain ⟨k₁, hk₁, hk'⟩ := Option.bind_eq_some_iff.1 hk
      rw [stepTimes_succ (hstep base k k₁ hk₁)]
      exact hrun base k₁ k' hk'

/-- **A program touches only the operands that it takes.**  Start it at any address with the
operands `s`, topmost first, and let `n` steps succeed.  They write some lines.  With any `base`
below `s`, and with any writer that takes these lines, `n` steps succeed as well, write the same
lines and end at the same address, with `base` below the same operands. -/
theorem steps_above_base {p : Program} {out : σ} {start : Machine σ}
    (hp : ofProgram? p out = some start) (ip : Nat) (s base : List Int64)
    (h : stepTimes n { start with ip := ip, stack := s } = some m') :
    ∃ lines, Writer.writeAll? out lines = some m'.out ∧
      ∀ {τ δ : Type} [Writer τ δ] (k k' : τ), Writer.writeAll? k lines = some k' →
        stepTimes n { start with ip := ip, stack := s ++ base, out := k } =
          some { m' with stack := m'.stack ++ base, out := k' } := by
  have hout : start.out = out := by
    rw [ofProgram?] at hp
    split at hp <;> cases hp
    rfl
  obtain ⟨lines, hlines, hrun⟩ := stepTimes_above h
  refine ⟨lines, by rw [← hout]; exact hlines, ?_⟩
  intro τ δ _ k k' hk
  exact hrun base k k' hk

/-- `WHILE DUPL DO DUMP PUSH 0 END` from its second word on, with a step after its end. -/
theorem steps_above_base_loop :
    let p : Program :=
      { code := #[⟨.loop, 0⟩, ⟨.dupl, 0⟩, ⟨.body, 6⟩, ⟨.dump, 0⟩, ⟨.push, 0⟩, ⟨.close, 0⟩]
        linked := true }
    let start : Machine := { code := p.code, out := .buffer "" }
    let m : Machine :=
      { code := p.code, ip := 6, stack := [0], out := .buffer "5\n", steps := 8 }
    ofProgram? p (Sink.buffer "") = some start ∧
      stepTimes 9 { start with ip := 1, stack := [5] } = some m ∧
      stepTimes 9 { start with ip := 1, stack := [5, 8, 9] } =
        some { m with stack := [0, 8, 9] } := by
  intro p start m
  have hstart : ofProgram? p (Sink.buffer "") = some start := rfl
  have hrun : stepTimes 9 { start with ip := 1, stack := [5] } = some m := rfl
  obtain ⟨lines, hlines, habove⟩ := steps_above_base hstart 1 [5] [8, 9] hrun
  exact ⟨hstart, hrun, habove _ _ hlines⟩

/-! ## Faults -/

/-- How the instruction `i` of the machine `m` can fault: the cause, and the operands and the writer
that are left. -/
inductive Fails (m : Machine σ) (i : Instr) : FaultCause ε → List Int64 → σ → Prop
  | combine {f : Int64 → Int64 → Int64} :
      i.op.combined? = some f → m.stack.length < 2 → Fails m i .stackUnderflow [] m.out
  | empty :
      i.op = .dupl ∨ i.op = .dump ∨ i.op = .branch ∨ i.op = .body → m.stack = [] →
      Fails m i .stackUnderflow m.stack m.out
  | jump :
      i.op = .otherwise ∨ i.op = .close → ¬ (0 ≤ i.imm.toInt ∧ i.imm.toInt ≤ m.code.size) →
      Fails m i .badJump m.stack m.out
  | zero {rest : List Int64} :
      i.op = .branch ∨ i.op = .body → m.stack = 0 :: rest →
      ¬ (0 ≤ i.imm.toInt ∧ i.imm.toInt ≤ m.code.size) → Fails m i .badJump rest m.out
  | refused {a : Int64} {rest : List Int64} {out : σ} {e : ε} :
      i.op = .dump → m.stack = a :: rest →
      Writer.write m.out (toString a ++ "\n") = (out, some e) → Fails m i (.output e) rest out
  | undefined : i.op.isDefined = false → Fails m i (.unknownOp i.op) m.stack m.out

/-- An instruction that faults leaves all but the operands and the writer as it was. -/
theorem exists_fails_of_exec {c : FaultCause ε} (h : m.exec i = (m', some c)) :
    ∃ stack out, Fails m i c stack out ∧ m' = { m with stack := stack, out := out } := by
  cases hop : i.op with
  | push | pushTrue | pushFalse | mem | loop =>
    rw [exec, hop] at h
    cases h
  | plus | minus | equal | greater =>
    have hf : ∃ f, i.op.combined? = some f := by simp [Op.combined?, hop]
    obtain ⟨f, hf⟩ := hf
    rw [exec_combined hf, binary] at h
    split at h
    · cases h
    · rename_i hfew
      cases h
      refine ⟨[], m.out, .combine hf ?_, rfl⟩
      rcases hstack : m.stack with _ | ⟨a, _ | ⟨b, rest⟩⟩
      · simp
      · simp
      · exact absurd hstack (hfew a b rest)
  | dupl =>
    rw [exec, hop] at h
    simp only [duplicate] at h
    split at h <;> cases h
    exact ⟨m.stack, m.out, .empty (by simp [hop]) ‹_›, rfl⟩
  | dump =>
    rw [exec, hop] at h
    obtain ⟨code, ip, _ | ⟨a, rest⟩, memory, out, steps⟩ := m
    · cases h
      exact ⟨[], out, .empty (by simp [hop]) rfl, rfl⟩
    · simp only [dump] at h
      rcases hw : Writer.write out (toString a ++ "\n") with ⟨out', _ | e⟩ <;> rw [hw] at h <;>
        cases h
      exact ⟨rest, out', .refused hop rfl hw, rfl⟩
  | branch | body =>
    have hcond : i.op = .branch ∨ i.op = .body := by simp [hop]
    rw [exec_condition hcond, jumpUnless] at h
    split at h
    · cases h
      exact ⟨m.stack, m.out, .empty (by simp [hop]) ‹_›, rfl⟩
    · rename_i a rest hstack
      by_cases ha : a = 0
      · subst ha
        simp only [if_true, jump] at h
        split at h <;> cases h
        exact ⟨rest, m.out, .zero hcond hstack ‹_›, rfl⟩
      · simp only [ha, if_false] at h
        cases h
  | otherwise | close =>
    have hgoto : i.op = .otherwise ∨ i.op = .close := by simp [hop]
    rw [exec_goto hgoto, jump] at h
    split at h <;> cases h
    exact ⟨m.stack, m.out, .jump hgoto ‹_›, rfl⟩
  | undefined k =>
    rw [exec, hop] at h
    cases h
    rw [← hop]
    exact ⟨m.stack, m.out, .undefined (by rw [hop]; rfl), rfl⟩

/-- **What a step that faults can do.** -/
theorem step_fault_cases {f : Fault ε} (h : m.step = (m', some f)) :
    ∃ i c stack out, m.next? = some i ∧ Fails m i c stack out ∧ f = ⟨m.ip, i.op, c⟩ ∧
      m' = { m with stack := stack, out := out } := by
  cases hi : m.next? with
  | none => cases (step_of_halted (halted_iff.2 hi)).symm.trans h
  | some i =>
    rcases hexec : m.exec i with ⟨m₁, _ | c⟩
    · cases (step_eq hi hexec).symm.trans h
    · cases (step_eq_fault hi hexec).symm.trans h
      obtain ⟨stack, out, hfails, rfl⟩ := exists_fails_of_exec hexec
      exact ⟨i, c, stack, out, rfl, hfails, rfl, rfl⟩

end Machine

end StackLang

import StackLang.Block
import StackLang.Proofs.Machine.Run

/-!
# Single instructions

What one instruction does to a machine whose sink takes everything.  Such a machine is a store, the
operands and the output of `Block.Store`, at an address.

`Machine.Moves` lists what an instruction that succeeds can do: change the store and go on, or go
where its immediate says.  `moves_of_step` shows that a step does nothing else, and the lemmas
before it that each of these happens where it should.
-/

set_option autoImplicit false

namespace StackLang

/-- A machine at address `ip` with the operands and the output of a store. -/
def Machine.ofStore (code : Array Instr) (ip : Nat) (s : Block.Store) (steps : Nat) : Machine :=
  { code, ip, stack := s.stack, out := .buffer s.out, steps }

namespace Machine

open Block (Store)

variable {code : Array Instr} {a z n : Nat} {s t : Store} {i : Instr} {op : Op} {x : Int64}
  {st : List Int64} {o : String} {m : Machine}

/-! ## Single instructions -/

theorem dump_ofStore :
    (ofStore code a ⟨x :: st, o⟩ n).dump
      = (ofStore code (a + 1) ⟨st, o ++ toString x ++ "\n"⟩ n, none) := by
  simp [Machine.dump, ofStore, Writer.write, String.append_assoc]

/-- The machine does what a plain operation does to a store. -/
theorem exec_apply (h : s.apply i = some t) :
    (ofStore code a s n).exec i = (ofStore code (a + 1) t n, none) := by
  obtain ⟨op, imm⟩ := i
  obtain ⟨st, o⟩ := s
  cases op with
  | dump =>
    cases st with
    | nil => cases h
    | cons x st =>
      cases h
      exact dump_ofStore
  | _ =>
    rcases st with _ | ⟨x, _ | ⟨y, st⟩⟩ <;> simp only [Block.Store.apply] at h <;> cases h <;> rfl

/-- A defined plain operation that lacks an operand is a fault, and writes nothing. -/
theorem exec_apply_none (hp : i.op.isBlockWord = false) (hd : i.op.isDefined = true)
    (h : s.apply i = none) :
    ∃ m, (ofStore code a s n).exec i = (m, some .stackUnderflow) ∧ m.out = .buffer s.out := by
  obtain ⟨op, imm⟩ := i
  obtain ⟨st, o⟩ := s
  cases op with
  | branch | otherwise | close | loop | body => cases hp
  | undefined k => cases hd
  | _ => rcases st with _ | ⟨x, _ | ⟨y, st⟩⟩ <;> first | exact ⟨_, rfl, rfl⟩ | cases h

theorem step_ofStore (hi : code[a]? = some i)
    (h : (ofStore code a s n).exec i = (ofStore code z t n, none)) :
    (ofStore code a s n).step = (ofStore code z t (n + 1), none) :=
  step_eq (m := ofStore code a s n) hi h

theorem step_apply (hi : code[a]? = some i) (h : s.apply i = some t) :
    (ofStore code a s n).step = (ofStore code (a + 1) t (n + 1), none) :=
  step_ofStore hi (exec_apply h)

theorem step_loop (hi : code[a]? = some { op := .loop }) :
    (ofStore code a s n).step = (ofStore code (a + 1) s (n + 1), none) :=
  step_ofStore hi rfl

/-- A target inside the program, its end included, can be gone to. -/
theorem jump_ofStore (hsize : code.size < 0x8000000000000000) (hz : z ≤ code.size) :
    (ofStore code a s n).jump (Int64.ofNat z) = (ofStore code z s n, none) := by
  have hint : (Int64.ofNat z).toInt = z := Int64.toInt_ofNat_of_lt (by omega)
  rw [Machine.jump, hint, if_pos ⟨by omega, by exact_mod_cast hz⟩]
  rfl

theorem step_jump (hsize : code.size < 0x8000000000000000) (hz : z ≤ code.size)
    (hop : op = .otherwise ∨ op = .close) (hi : code[a]? = some (Block.jump op z)) :
    (ofStore code a s n).step = (ofStore code z s (n + 1), none) := by
  refine step_ofStore hi ?_
  rcases hop with rfl | rfl <;> exact jump_ofStore hsize hz

/-- A condition that is 0 goes to the target. -/
theorem step_zero (hsize : code.size < 0x8000000000000000) (hz : z ≤ code.size)
    (hop : op = .branch ∨ op = .body) (hi : code[a]? = some (Block.jump op z)) :
    (ofStore code a ⟨0 :: st, o⟩ n).step = (ofStore code z ⟨st, o⟩ (n + 1), none) := by
  refine step_ofStore hi ?_
  rcases hop with rfl | rfl <;> exact jump_ofStore (s := ⟨st, o⟩) hsize hz

/-- Any other condition goes on. -/
theorem step_nonzero (hx : x ≠ 0) (hop : op = .branch ∨ op = .body)
    (hi : code[a]? = some (Block.jump op z)) :
    (ofStore code a ⟨x :: st, o⟩ n).step = (ofStore code (a + 1) ⟨st, o⟩ (n + 1), none) := by
  refine step_ofStore hi ?_
  rcases hop with rfl | rfl <;>
    simp [Block.jump, exec, jumpUnless, ofStore, hx, Machine.advance]

theorem step_apply_none (hi : code[a]? = some i) (hp : i.op.isBlockWord = false)
    (hd : i.op.isDefined = true) (h : s.apply i = none) :
    ∃ m f, (ofStore code a s n).step = (m, some f) ∧ f.cause = .stackUnderflow ∧
      m.out = .buffer s.out := by
  obtain ⟨m, hexec, hout⟩ := exec_apply_none hp hd h
  exact ⟨m, _, step_eq_fault (m := ofStore code a s n) hi hexec, rfl, hout⟩

/-- A condition that is missing is a fault. -/
theorem step_empty (hop : op = .branch ∨ op = .body) (hi : code[a]? = some (Block.jump op z)) :
    (ofStore code a ⟨[], o⟩ n).step
      = (ofStore code a ⟨[], o⟩ n, some ⟨a, op, .stackUnderflow⟩) := by
  refine step_eq_fault (i := Block.jump op z) hi ?_
  rcases hop with rfl | rfl <;> rfl

/-! ## What a step can do -/

/-- What the instruction `i` at address `a` can do to a store, and where it goes on. -/
inductive Moves (i : Instr) (a : Nat) : Store → Nat → Store → Prop
  /-- A plain operation. -/
  | apply {s t : Store} : s.apply i = some t → Moves i a s (a + 1) t
  /-- The start of a loop. -/
  | loop {s : Store} : i.op = .loop → Moves i a s (a + 1) s
  /-- A condition that is 0. -/
  | zero {st : List Int64} {o : String} :
      i.op = .branch ∨ i.op = .body → Moves i a ⟨0 :: st, o⟩ i.imm.toInt.toNat ⟨st, o⟩
  /-- A condition that is not 0. -/
  | nonzero {x : Int64} {st : List Int64} {o : String} :
      i.op = .branch ∨ i.op = .body → x ≠ 0 → Moves i a ⟨x :: st, o⟩ (a + 1) ⟨st, o⟩
  /-- A jump. -/
  | jump {s : Store} : i.op = .otherwise ∨ i.op = .close → Moves i a s i.imm.toInt.toNat s

theorem isJump_of_condition (h : i.op = .branch ∨ i.op = .body) : i.op.isJump = true := by
  rcases h with h | h <;> rw [h] <;> rfl

theorem isJump_of_jump (h : i.op = .otherwise ∨ i.op = .close) : i.op.isJump = true := by
  rcases h with h | h <;> rw [h] <;> rfl

/-- No move leaves a program whose jumps stay inside it. -/
theorem Moves.le (h : Moves i a s z t) (ha : a < n)
    (hjump : i.op.isJump = true → i.imm.toInt ≤ n) : z ≤ n := by
  cases h with
  | apply | loop | nonzero => exact ha
  | zero hop =>
    have := hjump (isJump_of_condition hop)
    omega
  | jump hop =>
    have := hjump (isJump_of_jump hop)
    omega

theorem eq_of_jump {x : Int64} (h : (ofStore code a s n).jump x = (m, none)) :
    m = ofStore code x.toInt.toNat s n := by
  rw [Machine.jump] at h
  split at h <;> cases h
  rfl

theorem eq_of_jumpUnless (h : (ofStore code a ⟨x :: st, o⟩ n).jumpUnless i.imm = (m, none)) :
    m = ofStore code (if x = 0 then i.imm.toInt.toNat else a + 1) ⟨st, o⟩ n := by
  by_cases hx : x = 0
  · subst hx
    exact eq_of_jump (s := ⟨st, o⟩) h
  · rw [if_neg hx]
    have hgo : (ofStore code a ⟨x :: st, o⟩ n).jumpUnless i.imm
        = (ofStore code (a + 1) ⟨st, o⟩ n, none) := by
      simp [jumpUnless, ofStore, hx, Machine.advance]
    cases hgo.symm.trans h
    rfl

theorem moves_of_jumpUnless (hop : i.op = .branch ∨ i.op = .body)
    (h : (ofStore code a s n).jumpUnless i.imm = (m, none)) :
    ∃ z t, m = ofStore code z t n ∧ Moves i a s z t := by
  obtain ⟨_ | ⟨x, st⟩, o⟩ := s
  · cases h
  · refine ⟨_, _, eq_of_jumpUnless h, ?_⟩
    by_cases hx : x = 0
    · subst hx
      exact .zero hop
    · rw [if_neg hx]
      exact .nonzero hop hx

theorem moves_of_exec (h : (ofStore code a s n).exec i = (m, none)) :
    ∃ z t, m = ofStore code z t n ∧ Moves i a s z t := by
  cases hw : i.op.isBlockWord with
  | false =>
    cases happ : s.apply i with
    | some t =>
      cases (exec_apply happ).symm.trans h
      exact ⟨_, t, rfl, .apply happ⟩
    | none =>
      cases hd : i.op.isDefined with
      | true =>
        obtain ⟨m', hfault, -⟩ := exec_apply_none hw hd happ
        cases hfault.symm.trans h
      | false =>
        obtain ⟨op, imm⟩ := i
        cases op <;> cases hd
        cases h
  | true =>
    obtain ⟨op, imm⟩ := i
    cases op with
    | branch => exact moves_of_jumpUnless (i := ⟨.branch, imm⟩) (.inl rfl) h
    | body => exact moves_of_jumpUnless (i := ⟨.body, imm⟩) (.inr rfl) h
    | otherwise => exact ⟨_, s, eq_of_jump h, .jump (.inl rfl)⟩
    | close => exact ⟨_, s, eq_of_jump h, .jump (.inr rfl)⟩
    | loop =>
      cases h
      exact ⟨_, s, rfl, .loop rfl⟩
    | _ => cases hw

/-- **A step that succeeds is one of the moves of its instruction.** -/
theorem moves_of_step (hi : code[a]? = some i) (h : (ofStore code a s n).step = (m, none)) :
    ∃ z t, m = ofStore code z t (n + 1) ∧ Moves i a s z t := by
  cases hexec : (ofStore code a s n).exec i with
  | mk m' c =>
    cases c with
    | none =>
      obtain ⟨z, t, rfl, hmoves⟩ := moves_of_exec hexec
      cases (step_ofStore hi hexec).symm.trans h
      exact ⟨z, t, rfl, hmoves⟩
    | some c => cases (step_eq_fault (m := ofStore code a s n) hi hexec).symm.trans h

end Machine

end StackLang

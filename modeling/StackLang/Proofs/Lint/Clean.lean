import StackLang.Lint

/-!
# What the static checks ask for

`Lands code a op t` says where a jump `op` at `a` may go: onto or past a word that can close a block
of its kind, on the right side of the jump.  The checks of a jump find nothing exactly if it lands
(`checkTarget_eq_none_iff`).  So a program has no issues exactly if it is linked, all its operations
are defined, and all its jumps land inside it (`lint_eq_nil_iff`).
-/

set_option autoImplicit false

namespace StackLang

namespace Lint

/-- The word at `a` is `op`. -/
def OpAt (code : Array Instr) (a : Nat) (op : Op) : Prop := code[a]?.map Instr.op = some op

/-- The word at `a` is `op`, and its immediate is the address `t`. -/
def GoesTo (code : Array Instr) (a : Nat) (op : Op) (t : Nat) : Prop :=
  ∃ i, code[a]? = some i ∧ i.op = op ∧ i.imm.toInt = t

/-- Where a jump `op` at `a` may go. -/
def Lands (code : Array Instr) (a : Nat) : Op → Nat → Prop
  -- forward, past an `ELSE` or onto an `END`
  | .branch, t => a < t ∧ ((∃ e, t = e + 1 ∧ OpAt code e .otherwise) ∨ OpAt code t .close)
  -- forward, onto an `END`
  | .otherwise, t => a < t ∧ OpAt code t .close
  -- to the successor, or back to a `WHILE`
  | .close, t => t = a + 1 ∨ (t < a ∧ OpAt code t .loop)
  -- past a later `END` that goes back to a `WHILE` before the `DO`
  | .body, t => ∃ z w, t = z + 1 ∧ a < z ∧ GoesTo code z .close w ∧ w < a ∧ OpAt code w .loop
  | _, _ => True

variable {code : Array Instr} {a t u : Nat} {i : Instr} {op op' : Op}

/-! ## Words and their immediates -/

theorem OpAt.unique (h : OpAt code a op) (h' : OpAt code a op') : op = op' :=
  Option.some_inj.1 (h.symm.trans h')

theorem OpAt.exists_instr (h : OpAt code a op) : ∃ i, code[a]? = some i ∧ i.op = op :=
  Option.map_eq_some_iff.1 h

theorem opAt_of_getElem? (h : code[a]? = some i) : OpAt code a i.op := by
  rw [OpAt, h, Option.map_some]

theorem GoesTo.opAt (h : GoesTo code a op t) : OpAt code a op := by
  obtain ⟨i, hi, rfl, -⟩ := h
  exact opAt_of_getElem? hi

theorem GoesTo.unique (h : GoesTo code a op t) (h' : GoesTo code a op' u) : t = u := by
  obtain ⟨i, hi, -, ht⟩ := h
  obtain ⟨j, hj, -, hu⟩ := h'
  cases hi.symm.trans hj
  exact Int.ofNat_inj.1 (ht.symm.trans hu)

/-! ## One instruction -/

theorem checkTarget_branch : checkTarget code a t .branch = none ↔ Lands code a .branch t := by
  by_cases hlt : a < t
  · obtain ⟨e, rfl⟩ : ∃ e, t = e + 1 := ⟨t - 1, by omega⟩
    simp [checkTarget, Lands, OpAt, hlt, Nat.not_le.2 hlt, Classical.or_iff_not_imp_left]
  · simp [checkTarget, Lands, hlt, Nat.not_lt.1 hlt]

theorem checkTarget_close : checkTarget code a t .close = none ↔ Lands code a .close t := by
  by_cases hon : t = a + 1
  · simp [checkTarget, Lands, hon]
  · simp [checkTarget, Lands, OpAt, hon]

/-- What the checks of a `DO` that goes past the word at `z` ask of that word. -/
theorem checkTarget_body_succ {z : Nat} (hz : code[z]? = some i) :
    checkTarget code a (z + 1) .body = none ↔ a < z ∧ i.op = .close ∧ 0 ≤ i.imm.toInt ∧
      i.imm.toInt < a ∧ OpAt code i.imm.toInt.toNat .loop := by
  by_cases hop : i.op = .close ∧ a < z
  · simp [checkTarget, OpAt, hz, hop, Nat.not_le.2 hop.2]
  · have hbad : z + 1 ≤ a + 1 ∨ i.op ≠ .close := by
      by_cases h : i.op = .close
      · exact .inl (by simp [h] at hop; omega)
      · exact .inr h
    simp only [checkTarget, Nat.add_sub_cancel, hz, Option.map_some, ne_eq, Option.some_inj, hbad,
      if_true, reduceCtorEq, false_iff]
    rintro ⟨hlt, hclose, -⟩
    exact hop ⟨hclose, hlt⟩

theorem checkTarget_body : checkTarget code a t .body = none ↔ Lands code a .body t := by
  constructor
  · intro h
    by_cases hlt : t ≤ a + 1 ∨ code[t - 1]? = none
    · rcases hlt with hlt | hnone
      · simp [checkTarget, hlt] at h
      · simp [checkTarget, hnone] at h
    · obtain ⟨z, rfl⟩ : ∃ z, t = z + 1 := ⟨t - 1, by omega⟩
      obtain ⟨i, hz⟩ := Option.ne_none_iff_exists'.1 fun hnone => hlt (.inr hnone)
      obtain ⟨haz, hop, hpos, hback, hw⟩ := (checkTarget_body_succ hz).1 h
      exact ⟨z, i.imm.toInt.toNat, rfl, haz, ⟨i, hz, hop, by omega⟩, by omega, hw⟩
  · rintro ⟨z, w, rfl, haz, ⟨i, hz, hop, himm⟩, hback, hw⟩
    exact (checkTarget_body_succ hz).2 ⟨haz, hop, by omega, by omega, by simpa [himm] using hw⟩

/-- **The checks of a jump into the program find nothing exactly if it lands.** -/
theorem checkTarget_eq_none_iff : checkTarget code a t op = none ↔ Lands code a op t := by
  cases op with
  | branch => exact checkTarget_branch
  | otherwise => simp [checkTarget, Lands, OpAt]
  | close => exact checkTarget_close
  | body => exact checkTarget_body
  | _ => simp [checkTarget, Lands]

/-- The instruction is one that the checks accept at `a`. -/
def Accepted (code : Array Instr) (a : Nat) (i : Instr) : Prop :=
  i.op.isDefined = true ∧
    (i.op.isJump = true → ∃ t : Nat, i.imm.toInt = t ∧ t ≤ code.size ∧ Lands code a i.op t)

theorem checkInstr_eq_none_iff : checkInstr code a i = none ↔ Accepted code a i := by
  by_cases hdef : i.op.isDefined = true
  · by_cases hjump : i.op.isJump = true
    · by_cases hin : i.imm.toInt < 0 ∨ (code.size : Int) < i.imm.toInt
      · have hout : ¬ Accepted code a i := by
          rintro ⟨-, h⟩
          obtain ⟨t, ht, hle, -⟩ := h hjump
          omega
        simp [checkInstr, hdef, hjump, hin, hout]
      · rw [checkInstr, if_neg (by simp [hdef]), if_neg (by simp [hjump]), if_neg hin,
          checkTarget_eq_none_iff]
        constructor
        · intro h
          exact ⟨hdef, fun _ => ⟨i.imm.toInt.toNat, by omega, by omega, h⟩⟩
        · rintro ⟨-, h⟩
          obtain ⟨t, ht, -, hland⟩ := h hjump
          simpa [ht] using hland
    · simp [checkInstr, Accepted, hdef, hjump]
  · simp [checkInstr, Accepted, hdef]

/-! ## All instructions -/

/-- The issues are the findings at the instructions, each with its place. -/
theorem mem_checkFrom {x : Issue} {l : List Instr} :
    x ∈ checkFrom code a l ↔ ∃ k i f, l[k]? = some i ∧ checkInstr code (a + k) i = some f ∧
      x = ⟨some (a + k, i.op), f⟩ := by
  induction l generalizing a with
  | nil => simp [checkFrom]
  | cons j l ih =>
    have hrest := ih (a := a + 1)
    simp only [show ∀ k, a + 1 + k = a + (k + 1) by omega] at hrest
    rw [← Nat.or_exists_add_one]
    simp only [List.getElem?_cons_zero, List.getElem?_cons_succ, Nat.add_zero, Option.some_inj,
      ← hrest]
    cases hj : checkInstr code a j with
    | none => simp [checkFrom, hj]
    | some f => simp [checkFrom, hj]

end Lint

namespace Program

open Lint

variable {p : Program}

theorem mem_lint (hp : p.linked = true) {x : Issue} :
    x ∈ p.lint ↔ ∃ a i f, p.code[a]? = some i ∧ checkInstr p.code a i = some f ∧
      x = ⟨some (a, i.op), f⟩ := by
  simp [lint, hp, mem_checkFrom]

/-- **A program has no issues exactly if it is linked and all its instructions are accepted.** -/
theorem lint_eq_nil_iff :
    p.lint = [] ↔ p.linked = true ∧ ∀ a i, p.code[a]? = some i → Accepted p.code a i := by
  by_cases hp : p.linked = true
  · simp only [hp, true_and, List.eq_nil_iff_forall_not_mem, mem_lint hp]
    constructor
    · intro h a i hi
      rw [← checkInstr_eq_none_iff, Option.eq_none_iff_forall_ne_some]
      exact fun f hf => h _ ⟨a, i, f, hi, hf, rfl⟩
    · rintro h x ⟨a, i, f, hi, hf, -⟩
      rw [checkInstr_eq_none_iff.2 (h a i hi)] at hf
      cases hf
  · simp [lint, hp]

end Program

end StackLang

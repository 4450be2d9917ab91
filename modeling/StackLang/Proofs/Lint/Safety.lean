import StackLang.Proofs.Assembly.Emission
import StackLang.Proofs.Lint.Clean
import StackLang.Proofs.Machine.Run

/-!
# What a program without issues cannot do

The static checks, the compiler and the machine each have a test of their own for operations that
are not defined and for jumps that leave the program.  All three come down to
`Assembly.Translatable`: the checks find something other than a misplaced jump exactly if an
instruction is not translatable (`fatal_iff`), the compiler stops exactly at the first such
instruction (`emit_eq_none_iff`), and the machine executes any other one without leaving the
program, unless an operand is missing (`exec_safe`).
-/

set_option autoImplicit false

namespace StackLang

/-! ## The machine -/

namespace Machine

open Assembly (Translatable)

variable {σ ε : Type} [Writer σ ε] {code : Array Instr} {m : Machine σ} {i : Instr}

/-- A machine that runs `code`, is inside it or at its end, and whose writer never fails. -/
structure Inside (code : Array Instr) (m : Machine σ) : Prop where
  code_eq : m.code = code
  ip_le : m.ip ≤ code.size
  out : Writer.Unfailing m.out

/-- What is left after an instruction: a machine inside the code, and at most a missing operand. -/
def Safe (code : Array Instr) (r : Machine σ × Option (FaultCause ε)) : Prop :=
  Inside code r.1 ∧ ∀ c, r.2 = some c → c = .stackUnderflow

theorem safe_of_inside (h : Inside code m) : Safe code (m, none) :=
  ⟨h, fun _ hc => by cases hc⟩

theorem safe_pushing (h : Inside code m) (hlt : m.ip < code.size) (v : Int64) :
    Safe code (m.pushing v) :=
  safe_of_inside ⟨h.code_eq, hlt, h.out⟩

theorem safe_advance (h : Inside code m) (hlt : m.ip < code.size) : Safe code (m.advance, none) :=
  safe_of_inside ⟨h.code_eq, hlt, h.out⟩

theorem safe_underflow (h : Inside code m) : Safe code (m, some .stackUnderflow) :=
  ⟨h, fun _ hc => (Option.some_inj.1 hc).symm⟩

theorem safe_binary (h : Inside code m) (hlt : m.ip < code.size) (f : Int64 → Int64 → Int64) :
    Safe code (m.binary f) := by
  rw [binary]
  split
  · exact safe_of_inside ⟨h.code_eq, hlt, h.out⟩
  · exact safe_underflow ⟨h.code_eq, h.ip_le, h.out⟩

theorem safe_duplicate (h : Inside code m) (hlt : m.ip < code.size) : Safe code m.duplicate := by
  rw [duplicate]
  split
  · exact safe_underflow h
  · exact safe_of_inside ⟨h.code_eq, hlt, h.out⟩

theorem safe_jump (h : Inside code m) {target : Int64}
    (ht : 0 ≤ target.toInt ∧ target.toInt ≤ code.size) : Safe code (m.jump target) := by
  rw [jump, h.code_eq, if_pos ht]
  refine safe_of_inside ⟨rfl, ?_, h.out⟩
  have hle := ht.2
  show target.toInt.toNat ≤ code.size
  omega

theorem safe_jumpUnless (h : Inside code m) (hlt : m.ip < code.size) {target : Int64}
    (ht : 0 ≤ target.toInt ∧ target.toInt ≤ code.size) : Safe code (m.jumpUnless target) := by
  rw [jumpUnless]
  split
  · exact safe_underflow h
  · rename_i a rest _
    have hrest : Inside code { m with stack := rest } := ⟨h.code_eq, h.ip_le, h.out⟩
    by_cases ha : a = 0
    · simpa only [ha, if_true] using safe_jump hrest ht
    · simpa only [ha, if_false] using safe_advance hrest hlt

theorem safe_dump (h : Inside code m) (hlt : m.ip < code.size) : Safe code m.dump := by
  obtain ⟨c, ip, stack, memory, out, steps⟩ := m
  cases stack with
  | nil => exact safe_underflow h
  | cons a rest =>
    have hok := h.out.write (toString a ++ "\n")
    have hnext := h.out.next (toString a ++ "\n")
    simp only [dump]
    generalize Writer.write out (toString a ++ "\n") = w at hok hnext
    obtain ⟨out', ok⟩ := w
    cases hok
    exact safe_of_inside ⟨h.code_eq, hlt, hnext⟩

/-- **A translatable instruction is executed inside the code, unless an operand is missing.** -/
theorem exec_safe (h : Inside code m) (hlt : m.ip < code.size) (hi : Translatable code.size i) :
    Safe code (m.exec i) := by
  obtain ⟨hdef, hjump⟩ := hi
  obtain ⟨op, imm⟩ := i
  cases op with
  | push | pushTrue | pushFalse | mem => exact safe_pushing h hlt _
  | plus | minus | equal | greater => exact safe_binary h hlt _
  | dupl => exact safe_duplicate h hlt
  | dump => exact safe_dump h hlt
  | branch | body => exact safe_jumpUnless h hlt (hjump rfl)
  | otherwise | close => exact safe_jump h (hjump rfl)
  | loop => exact safe_advance h hlt
  | undefined k => cases hdef

/-- One step of a machine inside translatable code. -/
theorem step_safe
    (hcode : ∀ (a : Nat) (i : Instr), code[a]? = some i → Translatable code.size i)
    (h : Inside code m) :
    Inside code m.step.1 ∧ ∀ f, m.step.2 = some f → f.cause = .stackUnderflow := by
  cases hi : m.next? with
  | none =>
    rw [step_of_halted (halted_iff.2 hi)]
    exact ⟨h, nofun⟩
  | some i =>
    have hi' : code[m.ip]? = some i := by rw [← h.code_eq]; exact hi
    have hlt : m.ip < code.size := (Array.getElem?_eq_some_iff.1 hi').1
    obtain ⟨hinside, hcause⟩ := exec_safe h hlt (hcode _ i hi')
    cases hexec : m.exec i with
    | mk m' c =>
      rw [hexec] at hinside hcause
      cases c with
      | none =>
        rw [step_eq hi hexec]
        exact ⟨⟨hinside.code_eq, hinside.ip_le, hinside.out⟩, nofun⟩
      | some c =>
        rw [step_eq_fault hi hexec]
        refine ⟨hinside, ?_⟩
        rintro f ⟨⟩
        exact hcause c rfl

/-- Any number of steps of a machine inside translatable code. -/
theorem after_inside
    (hcode : ∀ (a : Nat) (i : Instr), code[a]? = some i → Translatable code.size i)
    (h : Inside code m) (k : Nat) : Inside code (m.after k) := by
  induction k generalizing m with
  | zero => exact h
  | succ k ih => exact ih (step_safe hcode h).1

end Machine

/-! ## The checks -/

namespace Lint

open Assembly (Translatable)

variable {code : Array Instr} {a t : Nat} {i : Instr} {op : Op} {f : Finding}

/-- A finding that rules out any translation. -/
def Fatal (f : Finding) : Prop := f.kind = .range ∨ f = .undefinedOp

/-- A jump that does not land is no fatal finding. -/
theorem not_fatal_of_checkTarget (h : checkTarget code a t op = some f) : ¬ Fatal f := by
  cases op with
  | branch | otherwise | close | body =>
    simp only [checkTarget] at h
    repeat' split at h
    all_goals first | (cases h; simp [Fatal, Finding.kind]) | cases h
  | _ => cases h

/-- The checks have a fatal finding exactly at the instructions that cannot be translated. -/
theorem fatal_iff :
    (∃ f, checkInstr code a i = some f ∧ Fatal f) ↔ ¬ Translatable code.size i := by
  by_cases hdef : i.op.isDefined = true
  · by_cases hjump : i.op.isJump = true
    · by_cases hin : i.imm.toInt < 0 ∨ (code.size : Int) < i.imm.toInt
      · have hout : ¬ Translatable code.size i := fun h => by
          have := h.2 hjump
          omega
        simp [checkInstr, hdef, hjump, hin, hout, Fatal, Finding.kind]
      · have htr : Translatable code.size i := ⟨hdef, fun _ => by omega⟩
        simp only [checkInstr, hdef, hjump, hin, htr, Bool.not_true, if_false, not_true_eq_false,
          iff_false, Bool.false_eq_true]
        rintro ⟨f, hf, hfatal⟩
        exact not_fatal_of_checkTarget hf hfatal
    · simp [checkInstr, Translatable, hdef, hjump]
  · simp [checkInstr, Translatable, hdef, Fatal]

theorem Accepted.translatable (h : Accepted code a i) : Translatable code.size i := by
  refine ⟨h.1, fun hjump => ?_⟩
  obtain ⟨t, ht, hle, -⟩ := h.2 hjump
  omega

end Lint

namespace Program

open Lint
open Assembly (Translatable)

theorem exists_fatal_iff {p : Program} (hp : p.linked = true) :
    (∃ x ∈ p.lint, Fatal x.finding) ↔ ¬ ∀ i ∈ p.code.toList, Translatable p.size i := by
  simp only [mem_lint hp, Classical.not_forall]
  constructor
  · rintro ⟨x, ⟨a, i, f, hi, hf, rfl⟩, hfatal⟩
    exact ⟨i, Array.mem_toList_iff.2 (Array.mem_of_getElem? hi), fatal_iff.1 ⟨f, hf, hfatal⟩⟩
  · rintro ⟨i, hi, hno⟩
    obtain ⟨a, ha⟩ := Array.mem_iff_getElem?.1 (Array.mem_toList_iff.1 hi)
    obtain ⟨f, hf, hfatal⟩ := fatal_iff.2 hno
    exact ⟨_, ⟨a, i, f, ha, hf, rfl⟩, hfatal⟩

/-- **A program without issues faults for a missing operand at most, and the checks agree with the
compiler.**  Take a writer, of whatever kind, that never fails.  A program without issues has a
machine; after any number of steps, faulting ones included, it is inside the program or at its end,
and a fault at the next step is a missing operand.  A linked program, whatever its issues, cannot be
compiled exactly if one of them is a jump out of the program or an undefined operation. -/
theorem lint_safe_and_decides_emit {σ ε : Type} [Writer σ ε] :
    (∀ (p : Program) (out : σ), p.lint = [] → Writer.Unfailing out →
      ∃ m, Machine.ofProgram? p out = some m ∧ ∀ k, (m.after k).ip ≤ p.size ∧
        ∀ f, (m.after k).step.2 = some f → f.cause = .stackUnderflow) ∧
    (∀ (p : Program) (out : σ), p.linked = true → Writer.Unfailing out →
      ((Assembly.emit p out).2 ≠ none ↔
        (∃ x ∈ p.lint, x.finding.kind = .range) ∨ ∃ x ∈ p.lint, x.finding = .undefinedOp)) := by
  constructor
  · intro p out hlint hout
    obtain ⟨hp, haccepted⟩ := lint_eq_nil_iff.1 hlint
    have hcode : ∀ (a : Nat) (i : Instr), p.code[a]? = some i → Translatable p.code.size i :=
      fun a i hi => (haccepted a i hi).translatable
    have hstart : Machine.Inside p.code { code := p.code, out } := ⟨rfl, Nat.zero_le _, hout⟩
    refine ⟨_, by rw [Machine.ofProgram?, if_pos hp], fun k => ?_⟩
    have hk := Machine.after_inside hcode hstart k
    exact ⟨hk.ip_le, (Machine.step_safe hcode hk).2⟩
  · intro p out hp hout
    have h : (Assembly.emit p out).2 ≠ none ↔ ∃ x ∈ p.lint, Fatal x.finding := by
      rw [exists_fatal_iff hp, ne_eq, Assembly.emit_eq_none_iff hp hout]
    rw [h]
    simp only [Fatal, and_or_left, exists_or]

/-- `TRUE WHILE DO PLUS END` has no issues, and lacks an operand at its fourth step; an `IF` out of
the program is an issue, and is not compiled. -/
theorem lint_safe_and_decides_emit_loop :
    let p : Program :=
      { code := #[⟨.pushTrue, 0⟩, ⟨.loop, 0⟩, ⟨.body, 5⟩, ⟨.plus, 0⟩, ⟨.close, 1⟩]
        linked := true }
    let q : Program := { code := #[⟨.branch, 7⟩, ⟨.close, 2⟩], linked := true }
    (p.lint = [] ∧ ∃ m, Machine.ofProgram? p (Sink.buffer "") = some m ∧
      (m.after 3).step.2 = some ⟨3, .plus, .stackUnderflow⟩ ∧
      ∀ k, (m.after k).ip ≤ 5 ∧
        ∀ f, (m.after k).step.2 = some f → f.cause = .stackUnderflow) ∧
    (q.linked = true ∧ q.lint = [⟨some (0, .branch), .outside 7 2⟩] ∧
      (Assembly.emit q (Sink.buffer "")).2 ≠ none) := by
  intro p q
  have hp : p.lint = [] := by decide
  have hq : q.lint = [⟨some (0, .branch), .outside 7 2⟩] := by decide
  have hout := Sink.unfailing_buffer ""
  obtain ⟨m, hm, hsafe⟩ := lint_safe_and_decides_emit.1 p (Sink.buffer "") hp hout
  refine ⟨⟨hp, m, hm, ?_, hsafe⟩, rfl, hq, ?_⟩
  · cases hm
    rfl
  · refine (lint_safe_and_decides_emit.2 q (Sink.buffer "") rfl hout).2 (.inl ?_)
    rw [hq]
    exact ⟨_, List.mem_singleton_self _, rfl⟩

end Program

end StackLang

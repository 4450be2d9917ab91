import Mathlib.Data.List.Forall2
import StackLang.Proofs.Linking.Diagnosis
import StackLang.Proofs.Linking.Structure

/-!
# Linking that fails

The walk of the linker writes immediates in place, so a program that cannot be linked comes back
with some of its jumps aimed, and a `DO` that waits for its `END` with the address of its `WHILE`.
What has been written depends on the words alone (`exists_of_link_failed`), and only jumps in front
of the word that is blamed have been written to (`aims`).  So a second attempt writes the same again
and fails in the same way, and nothing is lost (`link_failure_repeats`).
-/

set_option autoImplicit false

namespace StackLang

/-- A word that has a target is a jump. -/
def Op.Aims (op : Op) (t : Option Nat) : Prop := t.isSome = true → op.isJump = true

/-! ## The words that have been written to -/

theorem Block.aims (a : Nat) (b : Block) : List.Forall₂ Op.Aims b.ops (b.targets a) := by
  have h : List.Forall₂ (· = ·) ((b.targets a).map Option.isSome) (b.ops.map Op.isJump) := by
    rw [List.forall₂_eq_eq_eq]
    exact isSome_targets a b
  rw [List.forall₂_map_left_iff, List.forall₂_map_right_iff] at h
  refine h.flip.imp ?_
  intro op t hsome ht
  exact hsome.symm.trans ht

theorem Frame.aims (a : Nat) (f : Frame) :
    List.Forall₂ Op.Aims f.ops (f.frontTargets a ++ [f.kept a]) := by
  have hjump {op : Op} {t : Option Nat} (h : op.isJump = true) : op.Aims t := fun _ => h
  have hnone {op : Op} : op.Aims none := nofun
  cases f with
  | branch before => exact List.rel_append (before.aims a) (.cons hnone .nil)
  | loop before => exact List.rel_append (before.aims a) (.cons hnone .nil)
  | otherwise before yes =>
    exact List.rel_append (List.rel_append (before.aims a) (.cons (hjump rfl) (yes.aims _)))
      (.cons hnone .nil)
  | body before condition =>
    exact List.rel_append (List.rel_append (before.aims a) (.cons hnone (condition.aims _)))
      (.cons (hjump rfl) .nil)

theorem Frame.aims_opsOf (fs : List Frame) : List.Forall₂ Op.Aims (opsOf fs) (targetsOf fs) := by
  induction fs with
  | nil => exact .nil
  | cons f fs ih =>
    rw [opsOf, targetsOf, List.append_assoc]
    exact List.rel_append ih (f.aims _)

/-- **Of the words that have been read, only jumps have targets.** -/
theorem Reader.aims (r : Reader) : List.Forall₂ Op.Aims r.ops r.targets :=
  List.rel_append (Frame.aims_opsOf r.frames) (r.last.aims _)

namespace Program

open Reader

variable {p : Program} {e : StructureError} {r : Reader} {rest : List Op} {a : Nat} {i : Instr}

/-- A word that is no jump is not written to. -/
theorem aimAll_reader_not_jump (hops : p.ops = r.ops ++ rest) (hi : p.code[a]? = some i)
    (hj : i.op.isJump = false) : (Instr.aimAll p.code r.targets)[a]? = some i := by
  have hnone : r.targets[a]?.join = none := by
    by_contra hsome
    obtain ⟨t, ht⟩ := Option.ne_none_iff_exists'.1 hsome
    have htarget : r.targets[a]? = some (some t) := Option.join_eq_some_iff.1 ht
    have ha : a < r.ops.length := by
      rw [r.aims.length_eq]
      exact (List.getElem?_eq_some_iff.1 htarget).1
    have hop : p.ops[a]? = some i.op := by rw [getElem?_ops, hi, Option.map_some]
    rw [hops, List.getElem?_append_left ha] at hop
    have hmem : (i.op, some t) ∈ r.ops.zip r.targets :=
      List.mem_of_getElem? (List.getElem?_zip_eq_some.2 ⟨hop, htarget⟩)
    have hjump := (List.forall₂_iff_zip.1 r.aims).2 hmem rfl
    rw [hj] at hjump
    cases hjump
  rw [Instr.getElem?_aimAll, hi, hnone]
  rfl

/-- No word behind those that have been read is written to. -/
theorem aimAll_reader_of_le (ha : r.size ≤ a) :
    (Instr.aimAll p.code r.targets)[a]? = p.code[a]? := by
  rw [Instr.getElem?_aimAll, List.getElem?_eq_none (by rwa [length_targets])]
  cases p.code[a]? <;> rfl

/-- **Linking fails in one way on all programs with the same words.**  It writes the targets of the
words that it could read. -/
theorem exists_of_link_failed (hp : p.linked = false) (he : p.link.2 = some (.structural e)) :
    ∃ (r : Reader) (rest : List Op), p.ops = r.ops ++ rest ∧
      (e.reason ≠ "unterminated block" → e.addr = r.size) ∧
      ∀ q : Program, q.linked = false → q.ops = p.ops →
        q.link = ({ q with code := Instr.aimAll q.code r.targets }, some (.structural e)) := by
  rw [link_complaint hp] at he
  cases hread : readAll {} p.ops with
  | error x =>
    obtain ⟨r, op⟩ := x
    rw [hread] at he
    cases he
    obtain ⟨front, back, hops, hfront, -⟩ := exists_of_readAll_error hread
    refine ⟨r, op :: back, ?_, fun _ => rfl, ?_⟩
    · rw [hops, ops_of_readAll hfront]
      rfl
    · intro q hq hsame
      rw [link_eq q hq, hsame, hread]
  | ok r =>
    obtain ⟨_ | ⟨f, fs⟩, last⟩ := r
    · rw [hread] at he
      cases he
    · rw [hread] at he
      cases he
      refine ⟨⟨f :: fs, last⟩, [], ?_, fun hr => absurd rfl hr, ?_⟩
      · rw [List.append_nil]
        exact (ops_of_readAll hread).symm
      · intro q hq hsame
        rw [link_eq q hq, hsame, hread]

/-- What the last of `n + 1` attempts gives, each of them made on what the one before has left. -/
def relink (p : Program) : (n : Nat) → Program × Option LinkError
  | 0 => p.link
  | n + 1 => (p.relink n).1.link

/-- **Linking that fails does no harm, and fails again in the same way.**  The program is still not
linked, and nothing but the immediates of jumps has changed; where a word is blamed, those of the
words from it on have not changed either.  However often the linking is tried again, each attempt
has the same complaint and leaves the program as the first one has left it. -/
theorem link_failure_repeats (hp : p.linked = false) (he : p.link.2 = some (.structural e)) :
    p.link.1.linked = false ∧ p.link.1.source = p.source ∧ p.link.1.size = p.size ∧
      p.link.1.ops = p.ops ∧
      (∀ (a : Nat) (i : Instr), p.code[a]? = some i → i.op.isJump = false →
        p.link.1.code[a]? = some i) ∧
      (e.reason ≠ "unterminated block" → ∀ a, e.addr ≤ a → p.link.1.code[a]? = p.code[a]?) ∧
      ∀ n, p.relink n = (p.link.1, some (.structural e)) := by
  obtain ⟨r, rest, hops, haddr, hlink⟩ := exists_of_link_failed hp he
  have hfirst := hlink p hp rfl
  -- what the first attempt leaves has the same words, so the second one writes the same targets
  have hagain := hlink { p with code := Instr.aimAll p.code r.targets } hp (Instr.ops_aimAll _ _)
  rw [Instr.aimAll_aimAll] at hagain
  rw [hfirst]
  refine ⟨hp, rfl, Instr.size_aimAll _ _, Instr.ops_aimAll _ _, ?_, ?_, ?_⟩
  · intro a i hi hj
    exact aimAll_reader_not_jump hops hi hj
  · intro hr a ha
    exact aimAll_reader_of_le (by rwa [← haddr hr])
  · intro n
    induction n with
    | zero => exact hfirst
    | succ n ih =>
      rw [relink, ih]
      exact hagain

/-- A loop that is finished, a `DO` that waits for its `END` and an `ELSE` that is in its way, with
an immediate left over in every word. -/
theorem link_failure_repeats_crossed :
    let p : Program :=
      { code := #[⟨.loop, 9⟩, ⟨.body, 8⟩, ⟨.close, 7⟩, ⟨.branch, 6⟩, ⟨.loop, 5⟩, ⟨.pushTrue, 4⟩,
          ⟨.body, 3⟩, ⟨.otherwise, 2⟩, ⟨.close, 1⟩] }
    let q : Program :=
      { code := #[⟨.loop, 9⟩, ⟨.body, 3⟩, ⟨.close, 0⟩, ⟨.branch, 6⟩, ⟨.loop, 5⟩, ⟨.pushTrue, 4⟩,
          ⟨.body, 4⟩, ⟨.otherwise, 2⟩, ⟨.close, 1⟩] }
    let e : StructureError := ⟨7, .otherwise, .wrongBlock .body 6⟩
    p.linked = false ∧ p.link = (q, some (.structural e)) ∧ e.reason ≠ "unterminated block" ∧
      (∀ a, 7 ≤ a → q.code[a]? = p.code[a]?) ∧
      ∀ n, p.relink n = (q, some (.structural e)) := by
  intro p q e
  have hlink : p.link = (q, some (.structural e)) := by decide
  have he : e.reason ≠ "unterminated block" := by decide
  obtain ⟨-, -, -, -, -, hkept, hagain⟩ :=
    link_failure_repeats (p := p) (e := e) rfl (by rw [hlink])
  rw [hlink] at hkept hagain
  exact ⟨rfl, hlink, he, hkept he, hagain⟩

end Program

end StackLang

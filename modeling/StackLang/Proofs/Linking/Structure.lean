import StackLang.Proofs.Linking.Walk
import StackLang.Proofs.Placement

/-!
# Linking follows the structure of blocks

`Block.constructs a b` lists the choices and loops of a block at address `a`, however deep they are
nested, each with the addresses of its words.  Linking a program that holds the words of a block
links every construct of it (`constructs_linked`), and changes nothing but the immediates of jumps
(`aimAll_not_jump`).  What the immediates were before does not matter: they are all overwritten, and
the one that is read back, of a `DO`, has been written before.
-/

set_option autoImplicit false

namespace StackLang

/-- A choice or a loop, by the addresses of its words. -/
inductive Construct where
  /-- `IF` at `i` and `END` at `z`. -/
  | when (i z : Nat)
  /-- `IF` at `i`, `ELSE` at `e` and `END` at `z`. -/
  | choice (i e z : Nat)
  /-- `WHILE` at `w`, `DO` at `d` and `END` at `z`. -/
  | loop (w d z : Nat)
  deriving DecidableEq, Repr

namespace Construct

/-- The jumps of a construct hold the addresses that they should go to. -/
def LinkedIn (code : Array Instr) : Construct → Prop
  | when i z =>
    code[i]? = some (Block.jump .branch z) ∧ code[z]? = some (Block.jump .close (z + 1))
  | choice i e z =>
    code[i]? = some (Block.jump .branch (e + 1)) ∧ code[e]? = some (Block.jump .otherwise z) ∧
      code[z]? = some (Block.jump .close (z + 1))
  | loop w d z =>
    code[d]? = some (Block.jump .body (z + 1)) ∧ code[z]? = some (Block.jump .close w)

/-- The addresses that the jumps of a construct go to. -/
def targets : Construct → List Nat
  | when _ z => [z, z + 1]
  | choice _ e z => [e + 1, z, z + 1]
  | loop w _ z => [z + 1, w]

end Construct

namespace Block

/-- The constructs of a block at address `a`, at every depth. -/
def constructs (a : Nat) : Block → List Construct
  | nil => []
  | plain _ rest => rest.constructs (a + 1)
  | when yes rest =>
    let z := a + 1 + yes.size
    .when a z :: yes.constructs (a + 1) ++ rest.constructs (z + 1)
  | choice yes no rest =>
    let e := a + 1 + yes.size
    let z := e + 1 + no.size
    .choice a e z :: yes.constructs (a + 1) ++ no.constructs (e + 1) ++ rest.constructs (z + 1)
  | loop condition body rest =>
    let d := a + 1 + condition.size
    let z := d + 1 + body.size
    .loop a d z :: condition.constructs (a + 1) ++ body.constructs (d + 1) ++
      rest.constructs (z + 1)

/-- `code` has the word `w` at `a`, aimed at its target if it has one. -/
def AimedAt (code : Array Instr) (a : Nat) (w : Op × Option Nat) : Prop :=
  ∀ t, w.2 = some t → code[a]? = some (jump w.1 t)

theorem zip_targets (a : Nat) (b : Block) (c : List Op) (ts : List (Option Nat)) :
    (b.ops ++ c).zip (b.targets a ++ ts) = b.ops.zip (b.targets a) ++ c.zip ts :=
  List.zip_append (by simp)

theorem length_zip_targets (a : Nat) (b : Block) : (b.ops.zip (b.targets a)).length = b.size := by
  simp

/-- Where all words of a block are aimed at their targets, its constructs are linked. -/
theorem linkedIn_of_aligned {code : Array Instr} {b : Block} {a : Nat}
    (h : Aligned (AimedAt code) a (b.ops.zip (b.targets a))) :
    ∀ c ∈ b.constructs a, c.LinkedIn code := by
  induction b generalizing a with
  | nil => simp [constructs]
  | plain i rest ih => exact ih h.2
  | when yes rest ihy ih =>
    simp only [ops, targets, List.cons_append, List.zip_cons_cons, zip_targets, aligned_cons,
      aligned_append, length_zip_targets] at h
    obtain ⟨hi, hyes, hz, hrest⟩ := h
    simp only [constructs, List.cons_append, List.mem_cons, List.mem_append]
    rintro c (rfl | hc | hc)
    · exact ⟨hi _ rfl, hz _ rfl⟩
    · exact ihy hyes c hc
    · exact ih hrest c hc
  | choice yes no rest ihy ihn ih =>
    simp only [ops, targets, List.cons_append, List.append_assoc, List.zip_cons_cons, zip_targets,
      aligned_cons, aligned_append, length_zip_targets] at h
    obtain ⟨hi, hyes, he, hno, hz, hrest⟩ := h
    simp only [constructs, List.cons_append, List.mem_cons, List.mem_append]
    rintro c (rfl | (hc | hc) | hc)
    · exact ⟨hi _ rfl, he _ rfl, hz _ rfl⟩
    · exact ihy hyes c hc
    · exact ihn hno c hc
    · exact ih hrest c hc
  | loop condition body rest ihc ihb ih =>
    simp only [ops, targets, List.cons_append, List.append_assoc, List.zip_cons_cons, zip_targets,
      aligned_cons, aligned_append, length_zip_targets] at h
    obtain ⟨-, hcond, hd, hbody, hz, hrest⟩ := h
    simp only [constructs, List.cons_append, List.mem_cons, List.mem_append]
    rintro c (rfl | (hc | hc) | hc)
    · exact ⟨hd _ rfl, hz _ rfl⟩
    · exact ihc hcond c hc
    · exact ihb hbody c hc
    · exact ih hrest c hc

/-- The jumps of a block stay inside it, its end included. -/
theorem target_le {b : Block} {a : Nat} {c : Construct} (hc : c ∈ b.constructs a) :
    ∀ t ∈ c.targets, t ≤ a + b.size := by
  induction b generalizing a with
  | nil => simp [constructs] at hc
  | plain i rest ih =>
    intro t ht
    have h := ih hc t ht
    simp only [size_plain]
    omega
  | when yes rest ihy ih =>
    simp only [constructs, List.cons_append, List.mem_cons, List.mem_append] at hc
    intro t ht
    simp only [size_when]
    rcases hc with rfl | hc | hc
    · simp only [Construct.targets, List.mem_cons, List.not_mem_nil, or_false] at ht
      omega
    · have h := ihy hc t ht
      omega
    · have h := ih hc t ht
      omega
  | choice yes no rest ihy ihn ih =>
    simp only [constructs, List.cons_append, List.mem_cons, List.mem_append] at hc
    intro t ht
    simp only [size_choice]
    rcases hc with rfl | (hc | hc) | hc
    · simp only [Construct.targets, List.mem_cons, List.not_mem_nil, or_false] at ht
      omega
    · have h := ihy hc t ht
      omega
    · have h := ihn hc t ht
      omega
    · have h := ih hc t ht
      omega
  | loop condition body rest ihc ihb ih =>
    simp only [constructs, List.cons_append, List.mem_cons, List.mem_append] at hc
    intro t ht
    simp only [size_loop]
    rcases hc with rfl | (hc | hc) | hc
    · simp only [Construct.targets, List.mem_cons, List.not_mem_nil, or_false] at ht
      omega
    · have h := ihc hc t ht
      omega
    · have h := ihb hc t ht
      omega
    · have h := ih hc t ht
      omega

/-- A word of a block has a target just if it is a jump. -/
theorem isSome_target {b : Block} {a k : Nat} {op : Op} (h : b.ops[k]? = some op) :
    ∃ t, (b.targets a)[k]? = some t ∧ t.isSome = op.isJump := by
  have hk := congrArg (·[k]?) (isSome_targets a b)
  simp only [List.getElem?_map, h, Option.map_some] at hk
  exact Option.map_eq_some_iff.1 hk

end Block

/-! ## The linked code, word by word -/

namespace Program

variable {p : Program} {b : Block} {a : Nat} {i : Instr}

theorem getElem?_ops (p : Program) (a : Nat) : p.ops[a]? = p.code[a]?.map Instr.op := by
  rw [ops, List.getElem?_map, Array.getElem?_toList]

/-- A jump gets the target that the block has for it. -/
theorem aimAll_jump {t : Nat} (hi : p.code[a]? = some i) (ht : (b.targets 0)[a]? = some (some t)) :
    (Instr.aimAll p.code (b.targets 0))[a]? = some (Block.jump i.op t) := by
  rw [Instr.getElem?_aimAll, hi, ht]
  rfl

/-- A word that is no jump keeps its immediate. -/
theorem aimAll_not_jump (hops : p.ops = b.ops) (hi : p.code[a]? = some i)
    (hj : i.op.isJump = false) : (Instr.aimAll p.code (b.targets 0))[a]? = some i := by
  have hop : b.ops[a]? = some i.op := by rw [← hops, getElem?_ops, hi, Option.map_some]
  obtain ⟨t, ht, hsome⟩ := Block.isSome_target (a := 0) hop
  rw [hj, Option.isSome_eq_false_iff, Option.isNone_iff_eq_none] at hsome
  rw [Instr.getElem?_aimAll, hi, ht, hsome]
  rfl

theorem constructs_linked (hops : p.ops = b.ops) :
    ∀ c ∈ b.constructs 0, c.LinkedIn (Instr.aimAll p.code (b.targets 0)) := by
  refine Block.linkedIn_of_aligned (aligned_iff.2 ?_)
  rintro k ⟨op, t⟩ hk t' rfl
  obtain ⟨hop, ht⟩ := List.getElem?_zip_eq_some.1 hk
  rw [← hops, getElem?_ops] at hop
  obtain ⟨i, hi, rfl⟩ := Option.map_eq_some_iff.1 hop
  rw [Nat.zero_add]
  exact aimAll_jump hi ht

/-- Two programs with the same words get the same jumps. -/
theorem aimAll_congr_jump {p' : Program} {i' : Instr} (hops : p.ops = b.ops)
    (hi : (Instr.aimAll p.code (b.targets 0))[a]? = some i)
    (hi' : (Instr.aimAll p'.code (b.targets 0))[a]? = some i') (hj : i.op.isJump = true) :
    i'.imm = i.imm := by
  rw [Instr.getElem?_aimAll] at hi hi'
  obtain ⟨j, hcode, rfl⟩ := Option.map_eq_some_iff.1 hi
  obtain ⟨j', -, rfl⟩ := Option.map_eq_some_iff.1 hi'
  have hop : b.ops[a]? = some j.op := by rw [← hops, getElem?_ops, hcode, Option.map_some]
  obtain ⟨t, ht, hsome⟩ := Block.isSome_target (a := 0) hop
  rw [Instr.aim_op] at hj
  rw [hj, Option.isSome_iff_exists] at hsome
  obtain ⟨n, rfl⟩ := hsome
  rw [ht]
  rfl

/-- **Linking follows the structure of blocks, whatever the immediates were.**  A program that holds
the words of a block is linked: each construct of the block gets its addresses, which are not cut
short as long as the length of the program is itself an immediate, and nothing else changes.  So the
jumps depend on the words alone, and linking the result once more gives it back. -/
theorem link_follows_blocks (hp : p.linked = false) (hops : p.ops = b.ops) :
    ∃ q, p.link = (q, none) ∧ q.linked = true ∧ q.source = p.source ∧ q.size = p.size ∧
      q.ops = p.ops ∧
      (∀ c ∈ b.constructs 0, c.LinkedIn q.code) ∧
      (p.size < 0x8000000000000000 →
        ∀ c ∈ b.constructs 0, ∀ t ∈ c.targets, (Int64.ofNat t).toInt = t) ∧
      (∀ (a : Nat) (i : Instr), p.code[a]? = some i → i.op.isJump = false →
        q.code[a]? = some i) ∧
      (∀ p' : Program, p'.linked = false → p'.ops = p.ops →
        ∃ q', p'.link = (q', none) ∧ ∀ (a : Nat) (i i' : Instr), q.code[a]? = some i →
          q'.code[a]? = some i' → i.op.isJump = true → i'.imm = i.imm) ∧
      ({ q with linked := false } : Program).link = (q, none) := by
  have hsize : p.size = b.size := by rw [← length_ops, hops, Block.length_ops]
  refine ⟨_, link_of_ops_eq hp hops, rfl, rfl, Instr.size_aimAll _ _, Instr.ops_aimAll _ _,
    constructs_linked hops, fun hlt c hc t ht => ?_, fun a i => aimAll_not_jump hops,
    fun p' hp' hops' => ⟨_, link_of_ops_eq hp' (hops'.trans hops), fun a i i' => ?_⟩, ?_⟩
  · have hle := Block.target_le hc t ht
    exact Int64.toInt_ofNat_of_lt (by omega)
  · exact aimAll_congr_jump hops
  · have hagain : Program.ops { p with code := Instr.aimAll p.code (b.targets 0), linked := false }
        = b.ops := (Instr.ops_aimAll _ _).trans hops
    exact (link_of_ops_eq rfl hagain).trans (by rw [Instr.aimAll_aimAll])

/-- A loop in the second part of a choice, with an immediate left over in every word. -/
theorem link_follows_blocks_nested :
    let p : Program :=
      { code := #[⟨.branch, 9⟩, ⟨.push, 7⟩, ⟨.otherwise, -1⟩, ⟨.loop, 4⟩, ⟨.pushTrue, 5⟩,
          ⟨.body, 8⟩, ⟨.dump, 2⟩, ⟨.close, 0⟩, ⟨.close, 6⟩] }
    let b : Block :=
      .choice (.plain ⟨⟨.push, 7⟩, rfl⟩ .nil)
        (.loop (.plain ⟨⟨.pushTrue, 0⟩, rfl⟩ .nil) (.plain ⟨⟨.dump, 0⟩, rfl⟩ .nil) .nil) .nil
    (p.linked = false ∧ p.ops = b.ops) ∧ b.constructs 0 = [.choice 0 2 8, .loop 3 5 7] ∧
      ∃ q, p.link = (q, none) ∧ ∀ c ∈ b.constructs 0, c.LinkedIn q.code := by
  intro p b
  refine ⟨⟨rfl, rfl⟩, rfl, ?_⟩
  obtain ⟨q, hq, -, -, -, -, hc, -⟩ := link_follows_blocks (p := p) (b := b) rfl rfl
  exact ⟨q, hq, hc⟩

end Program

end StackLang

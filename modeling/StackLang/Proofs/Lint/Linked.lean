import StackLang.Proofs.Linking.Constructs
import StackLang.Proofs.Linking.Diagnosis
import StackLang.Proofs.Lint.Clean

/-!
# Linked programs have no issues

Linking places the constructs of a block: `Construct.Stands` says of a construct that its words are
where they should be and that its jumps go where they should, as addresses and not as immediates.
Each of its jumps then lands (`Stands.lands`), and since every jump of a linked program belongs to a
construct, the static checks find nothing (`lint_of_link`).
-/

set_option autoImplicit false

namespace StackLang

open Lint

namespace Construct

/-- The words of a construct stand in their order, and its jumps go where they should. -/
def Stands (code : Array Instr) : Construct → Prop
  | when i z => i < z ∧ GoesTo code i .branch z ∧ GoesTo code z .close (z + 1)
  | choice i e z =>
    i < e ∧ e < z ∧ GoesTo code i .branch (e + 1) ∧ GoesTo code e .otherwise z ∧
      GoesTo code z .close (z + 1)
  | loop w d z =>
    w < d ∧ d < z ∧ OpAt code w .loop ∧ GoesTo code d .body (z + 1) ∧ GoesTo code z .close w

variable {code : Array Instr} {c : Construct} {x t : Nat} {op : Op}

theorem goesTo_of_jump (h : code[x]? = some (Block.jump op t)) (ht : (Int64.ofNat t).toInt = t) :
    GoesTo code x op t :=
  ⟨_, h, rfl, ht⟩

/-- A linked construct stands, as long as its addresses are immediates. -/
theorem stands_of_linkedIn (h : c.LinkedIn code) (hwords : ∀ w ∈ c.words, OpAt code w.1 w.2)
    (hforward : ∀ j ∈ c.joints, j.1 < j.2) (hfit : ∀ t ∈ c.targets, (Int64.ofNat t).toInt = t) :
    c.Stands code := by
  cases c with
  | when i z =>
    simp only [targets, joints, List.forall_mem_cons] at hfit hforward
    exact ⟨hforward.1, goesTo_of_jump h.1 hfit.1, goesTo_of_jump h.2 hfit.2.1⟩
  | choice i e z =>
    simp only [targets, joints, List.forall_mem_cons] at hfit hforward
    exact ⟨hforward.1, hforward.2.1, goesTo_of_jump h.1 hfit.1, goesTo_of_jump h.2.1 hfit.2.1,
      goesTo_of_jump h.2.2 hfit.2.2.1⟩
  | loop w d z =>
    simp only [targets, joints, words, List.forall_mem_cons] at hfit hforward hwords
    exact ⟨hforward.1, hforward.2.1, hwords.1, goesTo_of_jump h.1 hfit.1,
      goesTo_of_jump h.2 hfit.2.1⟩

/-- **The jumps of a construct that stands land.** -/
theorem Stands.lands (h : c.Stands code) (hx : (x, op) ∈ c.words) (hjump : op.isJump = true) :
    ∃ t, GoesTo code x op t ∧ Lands code x op t := by
  cases c with
  | when i z =>
    obtain ⟨hiz, hi, hz⟩ := h
    rcases mem_words_when.1 hx with ⟨rfl, rfl⟩ | ⟨rfl, rfl⟩
    · exact ⟨z, hi, hiz, .inr hz.opAt⟩
    · exact ⟨x + 1, hz, .inl rfl⟩
  | choice i e z =>
    obtain ⟨hie, hez, hi, he, hz⟩ := h
    rcases mem_words_choice.1 hx with ⟨rfl, rfl⟩ | ⟨rfl, rfl⟩ | ⟨rfl, rfl⟩
    · exact ⟨e + 1, hi, by omega, .inl ⟨e, rfl, he.opAt⟩⟩
    · exact ⟨z, he, hez, hz.opAt⟩
    · exact ⟨x + 1, hz, .inl rfl⟩
  | loop w d z =>
    obtain ⟨hwd, hdz, hw, hd, hz⟩ := h
    rcases mem_words_loop.1 hx with ⟨rfl, rfl⟩ | ⟨rfl, rfl⟩ | ⟨rfl, rfl⟩
    · cases hjump
    · exact ⟨z + 1, hd, z, w, rfl, hdz, hz, hwd, hw⟩
    · exact ⟨w, hz, .inr ⟨by omega, hw⟩⟩

end Construct

namespace Lint

variable {code : Array Instr} {a t : Nat} {op : Op}

theorem OpAt.lt_size (h : OpAt code a op) : a < code.size := by
  obtain ⟨i, hi, -⟩ := h.exists_instr
  exact (Array.getElem?_eq_some_iff.1 hi).1

/-- A jump that lands stays inside the program. -/
theorem Lands.le_size (h : Lands code a op t) (ha : GoesTo code a op t) (hjump : op.isJump = true) :
    t ≤ code.size := by
  have hlt := ha.opAt.lt_size
  cases op with
  | branch =>
    obtain ⟨-, ⟨e, rfl, he⟩ | hz⟩ := h
    · exact he.lt_size
    · exact hz.lt_size.le
  | otherwise => exact h.2.lt_size.le
  | close =>
    obtain rfl | ⟨hta, -⟩ := h
    · exact hlt
    · omega
  | body =>
    obtain ⟨z, w, rfl, -, hz, -⟩ := h
    exact hz.opAt.lt_size
  | _ => cases hjump

end Lint

theorem Op.isBlockWord_of_isJump {op : Op} (h : op.isJump = true) : op.isBlockWord = true := by
  cases op <;> first | rfl | cases h

namespace Program

variable {p q : Program} {b : Block}

theorem opAt_iff {a : Nat} {op : Op} : OpAt p.code a op ↔ p.ops[a]? = some op := by
  rw [getElem?_ops, OpAt]

/-- The words of the program are those of the block, whose constructs stand in it. -/
def StandsAs (p : Program) (b : Block) : Prop :=
  p.ops = b.ops ∧ ∀ c ∈ b.constructs 0, c.Stands p.code

theorem StandsAs.exists_construct (h : p.StandsAs b) {a : Nat} {op : Op} (ha : OpAt p.code a op)
    (hop : op.isBlockWord = true) :
    ∃ c ∈ b.constructs 0, (a, op) ∈ c.words ∧ c.Stands p.code := by
  obtain ⟨c, hc, hmem⟩ := Block.exists_construct (by rw [← h.1]; exact opAt_iff.1 ha) hop
  exact ⟨c, hc, hmem, h.2 c hc⟩

/-- Linking succeeds on the words of a block only, and aims them where the block has them. -/
theorem exists_of_link (h : p.link = (q, none)) :
    ∃ b : Block, p.ops = b.ops ∧
      q = { p with code := Instr.aimAll p.code (b.targets 0), linked := true } := by
  have hp : p.linked = false := linked_eq_false_of_link (by rw [h])
  obtain ⟨b, hops⟩ := (link_eq_none_iff hp).1 (by rw [h])
  rw [link_of_ops_eq hp hops] at h
  cases h
  exact ⟨b, hops, rfl⟩

theorem ops_of_link (h : p.link = (q, none)) : q.ops = p.ops := by
  obtain ⟨b, -, rfl⟩ := exists_of_link h
  exact Instr.ops_aimAll _ _

theorem size_of_link (h : p.link = (q, none)) : q.size = p.size := by
  rw [← length_ops, ops_of_link h, length_ops]

theorem linked_of_link (h : p.link = (q, none)) : q.linked = true := by
  obtain ⟨b, -, rfl⟩ := exists_of_link h
  rfl

/-- Linking makes the constructs of a block stand. -/
theorem standsAs_of_link (hsize : q.size < 0x8000000000000000) (h : p.link = (q, none)) :
    ∃ b, q.StandsAs b := by
  obtain ⟨b, hops, rfl⟩ := exists_of_link h
  have hops' := (ops_of_link h).trans hops
  refine ⟨b, hops', fun c hc => ?_⟩
  refine Construct.stands_of_linkedIn (constructs_linked hops c hc) ?_ ?_ ?_
  · exact fun w hw => opAt_iff.2 (by rw [hops', Block.getElem?_ops_of_mem_words hc hw])
  · exact fun j hj => (Block.within_joints 0 b j (Block.mem_joints.2 ⟨c, hc, hj⟩)).2.1
  · intro t ht
    have hle := Block.target_le hc t ht
    rw [← length_ops, hops', Block.length_ops] at hsize
    exact Int64.toInt_ofNat_of_lt (by omega)

/-- A program whose constructs stand has no issues. -/
theorem StandsAs.lint (h : p.StandsAs b) (hp : p.linked = true)
    (hdef : ∀ op ∈ p.ops, op.isDefined = true) : p.lint = [] := by
  have hmem {a : Nat} {i : Instr} (hi : p.code[a]? = some i) : i.op ∈ p.ops :=
    List.mem_of_getElem? (opAt_iff.1 (opAt_of_getElem? hi))
  refine lint_eq_nil_iff.2 ⟨hp, fun a i hi => ⟨hdef _ (hmem hi), fun hjump => ?_⟩⟩
  obtain ⟨c, -, hmem, hc⟩ :=
    h.exists_construct (opAt_of_getElem? hi) (Op.isBlockWord_of_isJump hjump)
  obtain ⟨t, hgoes, hlands⟩ := hc.lands hmem hjump
  obtain ⟨j, hj, -, ht⟩ := id hgoes
  cases hi.symm.trans hj
  exact ⟨t, ht, hlands.le_size hgoes hjump, hlands⟩

/-- **Linked programs have no issues**, if their operations are defined. -/
theorem lint_of_link (hdef : ∀ op ∈ p.ops, op.isDefined = true)
    (hsize : q.size < 0x8000000000000000) (h : p.link = (q, none)) : q.lint = [] := by
  obtain ⟨b, hb⟩ := standsAs_of_link hsize h
  exact hb.lint (linked_of_link h) (by rwa [ops_of_link h])

end Program

end StackLang

import StackLang.Block
import StackLang.Link

/-!
# The jumps of a block

`Block.targets a b` lists, word by word, the address that each word of the block `b` goes to when
the block stands at address `a`: `none` for a word that is no jump.  It reads only the shape of the
block, so it is the same whatever immediates the code held before.

`Instr.aimAll` writes such a list into code.  The code of a linked block is its flat code aimed at
its targets (`Block.linkedAt_eq`), and the three equations `aimAll_append_none`,
`aimAll_append_some` and `aimAll_set` say how the list changes when one immediate is written.
-/

set_option autoImplicit false

namespace StackLang

namespace Block

/-! ## Blocks in a row -/

/-- One block after the other. -/
def append : Block → Block → Block
  | nil, c => c
  | plain i rest, c => plain i (rest.append c)
  | when yes rest, c => when yes (rest.append c)
  | choice yes no rest, c => choice yes no (rest.append c)
  | loop condition body rest, c => loop condition body (rest.append c)

@[simp] theorem append_nil (b : Block) : b.append nil = b := by
  induction b with
  | nil => rfl
  | plain i rest ih => rw [append, ih]
  | when yes rest _ ih => rw [append, ih]
  | choice yes no rest _ _ ih => rw [append, ih]
  | loop condition body rest _ _ ih => rw [append, ih]

theorem append_assoc (b c d : Block) : (b.append c).append d = b.append (c.append d) := by
  induction b with
  | nil => rfl
  | plain i rest ih => rw [append, append, append, ih]
  | when yes rest _ ih => rw [append, append, append, ih]
  | choice yes no rest _ _ ih => rw [append, append, append, ih]
  | loop condition body rest _ _ ih => rw [append, append, append, ih]

@[simp] theorem ops_append (b c : Block) : (b.append c).ops = b.ops ++ c.ops := by
  induction b with
  | nil => rfl
  | plain i rest ih => simp [append, ops, ih]
  | when yes rest _ ih => simp [append, ops, ih]
  | choice yes no rest _ _ ih => simp [append, ops, ih]
  | loop condition body rest _ _ ih => simp [append, ops, ih]

@[simp] theorem size_plain (i : PlainInstr) (rest : Block) :
    (plain i rest).size = rest.size + 1 := rfl

@[simp] theorem size_when (yes rest : Block) :
    (when yes rest).size = yes.size + rest.size + 2 := by
  simp [size, ops]; omega

@[simp] theorem size_choice (yes no rest : Block) :
    (choice yes no rest).size = yes.size + no.size + rest.size + 3 := by
  simp [size, ops]; omega

@[simp] theorem size_loop (condition body rest : Block) :
    (loop condition body rest).size = condition.size + body.size + rest.size + 3 := by
  simp [size, ops]; omega

@[simp] theorem length_ops (b : Block) : b.ops.length = b.size := rfl

/-! ## Targets -/

/-- Where the words of a block at address `a` go to, `none` for a word that is no jump. -/
def targets (a : Nat) : Block → List (Option Nat)
  | nil => []
  | plain _ rest => none :: rest.targets (a + 1)
  | when yes rest =>
    let z := a + 1 + yes.size
    some z :: yes.targets (a + 1) ++ some (z + 1) :: rest.targets (z + 1)
  | choice yes no rest =>
    let e := a + 1 + yes.size
    let z := e + 1 + no.size
    some (e + 1) :: yes.targets (a + 1) ++ some z :: no.targets (e + 1) ++
      some (z + 1) :: rest.targets (z + 1)
  | loop condition body rest =>
    let d := a + 1 + condition.size
    let z := d + 1 + body.size
    none :: condition.targets (a + 1) ++ some (z + 1) :: body.targets (d + 1) ++
      some a :: rest.targets (z + 1)

@[simp] theorem length_targets (a : Nat) (b : Block) : (b.targets a).length = b.size := by
  induction b generalizing a with
  | nil => rfl
  | plain i rest ih => simp [targets, ih]
  | when yes rest ihy ih => simp [targets, ihy, ih]; omega
  | choice yes no rest ihy ihn ih => simp [targets, ihy, ihn, ih]; omega
  | loop condition body rest ihc ihb ih => simp [targets, ihc, ihb, ih]; omega

theorem targets_append (a : Nat) (b c : Block) :
    (b.append c).targets a = b.targets a ++ c.targets (a + b.size) := by
  induction b generalizing a with
  | nil => rfl
  | plain i rest ih =>
    rw [append, targets, ih, targets, size_plain, List.cons_append,
      show a + 1 + rest.size = a + (rest.size + 1) by omega]
  | when yes rest _ ih =>
    simp only [append, targets, ih, size_when, List.cons_append, List.append_assoc]
    rw [show a + 1 + yes.size + 1 + rest.size = a + (yes.size + rest.size + 2) by omega]
  | choice yes no rest _ _ ih =>
    simp only [append, targets, ih, size_choice, List.cons_append, List.append_assoc]
    rw [show a + 1 + yes.size + 1 + no.size + 1 + rest.size
      = a + (yes.size + no.size + rest.size + 3) by omega]
  | loop condition body rest _ _ ih =>
    simp only [append, targets, ih, size_loop, List.cons_append, List.append_assoc]
    rw [show a + 1 + condition.size + 1 + body.size + 1 + rest.size
      = a + (condition.size + body.size + rest.size + 3) by omega]

/-- The words of a block that have a target are its jumps. -/
theorem isSome_targets (a : Nat) (b : Block) :
    (b.targets a).map Option.isSome = b.ops.map Op.isJump := by
  induction b generalizing a with
  | nil => rfl
  | plain i rest ih =>
    have h : i.instr.op.isJump = false := by
      have hi := i.isPlain
      revert hi
      cases i.instr.op <;> simp [Op.isBlockWord, Op.isJump]
    simp [targets, ops, ih, h]
  | when yes rest ihy ih => simp [targets, ops, ihy, ih, Op.isJump]
  | choice yes no rest ihy ihn ih => simp [targets, ops, ihy, ihn, ih, Op.isJump]
  | loop condition body rest ihc ihb ih => simp [targets, ops, ihc, ihb, ih, Op.isJump]

/-! ## Blocks up to the immediates of their plain words -/

/-- The block of a single plain word, without an immediate. -/
def ofOp (op : Op) : Block :=
  if h : op.isBlockWord = false then plain ⟨{ op }, h⟩ nil else nil

theorem ofOp_plain {op : Op} (h : op.isBlockWord = false) :
    ofOp op = plain ⟨{ op }, h⟩ nil := dif_pos h

/-- The block with all immediates forgotten. -/
def erase : Block → Block
  | nil => nil
  | plain i rest => (ofOp i.instr.op).append rest.erase
  | when yes rest => when yes.erase rest.erase
  | choice yes no rest => choice yes.erase no.erase rest.erase
  | loop condition body rest => loop condition.erase body.erase rest.erase

@[simp] theorem ops_erase (b : Block) : b.erase.ops = b.ops := by
  induction b with
  | nil => rfl
  | plain i rest ih => simp [erase, ofOp_plain i.isPlain, ops, ih]
  | when yes rest ihy ih => simp [erase, ops, ihy, ih]
  | choice yes no rest ihy ihn ih => simp [erase, ops, ihy, ihn, ih]
  | loop condition body rest ihc ihb ih => simp [erase, ops, ihc, ihb, ih]

@[simp] theorem size_erase (b : Block) : b.erase.size = b.size := by
  rw [size, ops_erase, length_ops]

@[simp] theorem targets_erase (a : Nat) (b : Block) : b.erase.targets a = b.targets a := by
  induction b generalizing a with
  | nil => rfl
  | plain i rest ih => simp [erase, ofOp_plain i.isPlain, append, targets, ih]
  | when yes rest ihy ih => simp [erase, targets, ihy, ih]
  | choice yes no rest ihy ihn ih => simp [erase, targets, ihy, ihn, ih]
  | loop condition body rest ihc ihb ih => simp [erase, targets, ihc, ihb, ih]

end Block

/-! ## Writing targets into code -/

namespace Instr

/-- An instruction that goes to `t`, or as it was where that is no address. -/
def aim (i : Instr) : Option Nat → Instr
  | none => i
  | some t => { i with imm := Linker.address t }

@[simp] theorem aim_op (i : Instr) (t : Option Nat) : (i.aim t).op = i.op := by
  cases t <;> rfl

@[simp] theorem aim_aim (i : Instr) (t : Option Nat) : (i.aim t).aim t = i.aim t := by
  cases t <;> rfl

/-- The code with the immediates of `ts` written over its first words. -/
def aimAll (code : Array Instr) (ts : List (Option Nat)) : Array Instr :=
  code.mapIdx fun a i => i.aim ts[a]?.join

@[simp] theorem size_aimAll (code : Array Instr) (ts : List (Option Nat)) :
    (aimAll code ts).size = code.size := Array.size_mapIdx

theorem getElem?_aimAll (code : Array Instr) (ts : List (Option Nat)) (a : Nat) :
    (aimAll code ts)[a]? = code[a]?.map fun i => i.aim ts[a]?.join := Array.getElem?_mapIdx

theorem aimAll_nil (code : Array Instr) : aimAll code [] = code := by
  refine Array.ext (size_aimAll _ _) fun a h _ => ?_
  simp [aimAll, aim]

theorem aimAll_append_none (code : Array Instr) (ts : List (Option Nat)) :
    aimAll code (ts ++ [none]) = aimAll code ts := by
  refine Array.ext_getElem? fun a => ?_
  rw [getElem?_aimAll, getElem?_aimAll]
  rcases Nat.lt_trichotomy a ts.length with h | rfl | h
  · rw [List.getElem?_append_left h]
  · simp
  · rw [List.getElem?_eq_none (by rw [List.length_append]; exact h),
      List.getElem?_eq_none (Nat.le_of_lt h)]

theorem aimAll_set (code : Array Instr) (ts : List (Option Nat)) (a t : Nat)
    (h : a < ts.length) :
    setImmAt (aimAll code ts) a (Linker.address t) = aimAll code (ts.set a (some t)) := by
  refine Array.ext_getElem? fun k => ?_
  rw [setImmAt, Array.getElem?_modify, getElem?_aimAll, getElem?_aimAll]
  by_cases hk : a = k
  · subst hk
    cases hi : code[a]? with
    | none => simp
    | some i => cases ts[a]?.join <;> simp [h, aim]
  · rw [if_neg hk, List.getElem?_set_ne hk]

theorem aimAll_append_some (code : Array Instr) (ts : List (Option Nat)) (t : Nat) {n : Nat}
    (hn : n = ts.length) :
    setImmAt (aimAll code ts) n (Linker.address t) = aimAll code (ts ++ [some t]) := by
  subst hn
  rw [← aimAll_append_none code ts, aimAll_set _ _ _ _ (by simp)]
  simp

theorem aimAll_aimAll (code : Array Instr) (ts : List (Option Nat)) :
    aimAll (aimAll code ts) ts = aimAll code ts := by
  refine Array.ext_getElem? fun a => ?_
  rw [getElem?_aimAll, getElem?_aimAll, Option.map_map]
  exact congrArg (Option.map · code[a]?) (funext fun i => i.aim_aim _)

theorem ops_aimAll (code : Array Instr) (ts : List (Option Nat)) :
    (aimAll code ts).toList.map Instr.op = code.toList.map Instr.op := by
  refine List.ext_getElem? fun a => ?_
  simp [getElem?_aimAll, Function.comp_def]

end Instr

namespace Block

@[simp] theorem ops_flatten (b : Block) : b.flatten.map Instr.op = b.ops := by
  induction b with
  | nil => rfl
  | plain i rest ih => simp [flatten, ops, ih]
  | when yes rest ihy ih => simp [flatten, ops, ihy, ih]
  | choice yes no rest ihy ihn ih => simp [flatten, ops, ihy, ihn, ih]
  | loop condition body rest ihc ihb ih => simp [flatten, ops, ihc, ihb, ih]

@[simp] theorem length_flatten (b : Block) : b.flatten.length = b.size := by
  rw [← List.length_map Instr.op, ops_flatten, length_ops]

/-- The linked code of a block is its flat code aimed at its targets. -/
theorem linkedAt_eq (a : Nat) (b : Block) :
    b.linkedAt a = List.zipWith Instr.aim b.flatten (b.targets a) := by
  induction b generalizing a with
  | nil => rfl
  | plain i rest ih => simp [linkedAt, flatten, targets, Instr.aim, ih]
  | when yes rest ihy ih =>
    simp [linkedAt, flatten, targets, List.zipWith_append, ihy, ih, jump, Instr.aim,
      Linker.address]
  | choice yes no rest ihy ihn ih =>
    simp [linkedAt, flatten, targets, List.zipWith_append, ihy, ihn, ih, jump, Instr.aim,
      Linker.address]
  | loop condition body rest ihc ihb ih =>
    simp [linkedAt, flatten, targets, List.zipWith_append, ihc, ihb, ih, jump, Instr.aim,
      Linker.address]

/-- Aiming the flat code of a block at its targets gives its linked code. -/
theorem aimAll_flatten (b : Block) :
    (Instr.aimAll b.flatten.toArray (b.targets 0)).toList = b.linkedAt 0 := by
  rw [linkedAt_eq]
  refine List.ext_getElem? fun a => ?_
  rw [Array.getElem?_toList, Instr.getElem?_aimAll, List.getElem?_toArray,
    List.getElem?_zipWith]
  by_cases h : a < b.size
  · rw [List.getElem?_eq_getElem (by simpa using h), List.getElem?_eq_getElem (by simpa using h)]
    rfl
  · rw [List.getElem?_eq_none (l := b.flatten) (by simpa using h)]
    rfl

end Block

end StackLang

import Mathlib.Order.Bounds.Basic
import StackLang.Proofs.Linking.Walk

/-!
# What the linker complains about

Linking accepts exactly the words of blocks.  Of any other sequence of words it blames the first
word after which no continuation could help, or, where some continuation would, the innermost block
that was left open.  Both are said here without any linker: `Viable` words are the beginning of some
block, and a word is `LeftOpen` if no later word closes it with a whole block in between.

The bridge is the reader of `Proofs/Linking/Reader`: words are viable just if they can all be read
(`viable_iff`), and the last word of its innermost frame is the last one that is left open
(`isGreatest_leftOpen`).
-/

set_option autoImplicit false

namespace StackLang

/-- Whether a word is one that a later word has to close. -/
def Op.opens : Op → Bool
  | branch | otherwise | loop | body => true
  | _ => false

/-- Whether the second word can close the first. -/
def Op.closedBy : Op → Op → Bool
  | branch, otherwise | branch, close | otherwise, close | loop, body | body, close => true
  | _, _ => false

/-- Words that some block begins with. -/
def Viable (w : List Op) : Prop := ∃ b : Block, w <+: b.ops

/-- The word at `z` closes the word at `a`: it fits, and a whole block stands in between. -/
def ClosedAt (w : List Op) (a z : Nat) : Prop :=
  a < z ∧ (∃ b : Block, (w.take z).drop (a + 1) = b.ops) ∧
    ∃ opener closer, w[a]? = some opener ∧ w[z]? = some closer ∧ opener.closedBy closer = true

/-- The word at `a` opens a block, and no later word closes it. -/
def LeftOpen (w : List Op) (a : Nat) : Prop :=
  (∃ op, w[a]? = some op ∧ op.opens = true) ∧ ∀ z, ¬ ClosedAt w a z

/-! ## Viable words -/

theorem Viable.of_prefix {w d : List Op} (hd : Viable d) (h : w <+: d) : Viable w := by
  obtain ⟨b, hb⟩ := hd
  exact ⟨b, h.trans hb⟩

open Reader

theorem readAll_block (b : Block) : readAll {} b.ops = .ok ⟨[], b.erase⟩ := readAll_ops [] .nil b

/-- Words are viable just if they can all be read. -/
theorem viable_iff {w : List Op} : Viable w ↔ ∃ r, readAll {} w = .ok r := by
  constructor
  · rintro ⟨b, d, hb⟩
    cases hc : readAll {} w with
    | ok r => exact ⟨r, rfl⟩
    | error e =>
      have h := readAll_append_error hc d
      rw [hb, readAll_block] at h
      cases h
  · rintro ⟨r, hr⟩
    refine ⟨complete r.frames r.last, ?_⟩
    have h := ops_of_readAll hr
    rw [show w = r.ops from h.symm]
    exact ops_prefix_complete r.frames r.last

/-- Words are those of a block just if they can all be read and leave no block open. -/
theorem exists_block_iff {w : List Op} :
    (∃ b : Block, w = b.ops) ↔ ∃ last, readAll {} w = .ok ⟨[], last⟩ := by
  constructor
  · rintro ⟨b, rfl⟩
    exact ⟨b.erase, readAll_block b⟩
  · rintro ⟨last, h⟩
    exact ⟨last, (ops_of_readAll h).symm⟩

/-- Reading stops at the first word after which the words are no longer viable. -/
theorem isLeast_of_readAll_error {w : List Op} {r : Reader} {op : Op}
    (h : readAll {} w = .error (r, op)) :
    IsLeast {i | i < w.length ∧ ¬ Viable (w.take (i + 1))} r.size ∧ w[r.size]? = some op := by
  obtain ⟨w₁, w₂, rfl, h₁, h₂⟩ := exists_of_readAll_error h
  have hops : r.ops = w₁ := ops_of_readAll h₁
  have hsize : r.size = w₁.length := by rw [Reader.size, hops]
  rw [hsize]
  refine ⟨⟨⟨by simp, ?_⟩, fun j hj => ?_⟩, by simp⟩
  · rw [viable_iff]
    rintro ⟨t, ht⟩
    rw [show w₁ ++ op :: w₂ = (w₁ ++ [op]) ++ w₂ by simp, List.take_left' (by simp),
      readAll_append h₁, readAll, h₂] at ht
    cases ht
  · by_contra hlt
    refine hj.2 (Viable.of_prefix (viable_iff.2 ⟨r, h₁⟩) ?_)
    rw [List.take_append_of_le_length (by omega)]
    exact List.take_prefix _ _

/-! ## Blocks left open -/

theorem eq_take_cons_drop {w : List Op} {n : Nat} {op : Op} (h : w[n]? = some op) :
    w = w.take n ++ op :: w.drop (n + 1) := by
  obtain ⟨hn, rfl⟩ := List.getElem?_eq_some_iff.1 h
  rw [List.getElem_cons_drop, List.take_append_drop]

/-- The words after an opener begin with a whole block and a word that closes the opener. -/
def ClosedIn (op : Op) (w : List Op) : Prop :=
  ∃ (b : Block) (closer : Op) (d : List Op),
    w = b.ops ++ closer :: d ∧ op.closedBy closer = true

theorem closedAt_iff {w d : List Op} {op : Op} {z : Nat} :
    ClosedAt (w ++ op :: d) w.length z ↔
      ∃ (b : Block) (closer : Op) (d' : List Op), d = b.ops ++ closer :: d' ∧
        op.closedBy closer = true ∧ z = w.length + 1 + b.size := by
  constructor
  · rintro ⟨hlt, ⟨b, hb⟩, opener, closer, ho, hz, hclosed⟩
    obtain ⟨n, rfl⟩ := Nat.exists_eq_add_of_lt hlt
    have hop : op = opener := by simpa using ho
    have hd : d[n]? = some closer := by
      rw [← hz, List.getElem?_append_right (by omega),
        show w.length + n + 1 - w.length = n + 1 by omega, List.getElem?_cons_succ]
    have htake : d.take n = b.ops := by
      rw [← hb, show w.length + n + 1 = w.length + (n + 1) by omega, List.take_length_add_append,
        List.take_succ_cons, show w.length + 1 = (w ++ [op]).length by simp,
        show w ++ op :: d.take n = (w ++ [op]) ++ d.take n by simp, List.drop_left]
    refine ⟨b, closer, d.drop (n + 1), htake ▸ eq_take_cons_drop hd, hop ▸ hclosed, ?_⟩
    have hn : n < d.length := (List.getElem?_eq_some_iff.1 hd).1
    have hlen := congrArg List.length htake
    rw [List.length_take, Nat.min_eq_left hn.le, Block.length_ops] at hlen
    omega
  · rintro ⟨b, closer, d', rfl, hclosed, rfl⟩
    have hlen : w.length + 1 + b.size = ((w ++ [op]) ++ b.ops).length := by simp; omega
    refine ⟨by omega, ⟨b, ?_⟩, op, closer, by simp, ?_, hclosed⟩
    · rw [hlen, show w ++ op :: (b.ops ++ closer :: d') = ((w ++ [op]) ++ b.ops) ++ closer :: d'
        by simp, List.take_left, List.drop_left' (by simp)]
    · rw [hlen, show w ++ op :: (b.ops ++ closer :: d') = ((w ++ [op]) ++ b.ops) ++ closer :: d'
        by simp, List.getElem?_append_right (Nat.le_refl _), Nat.sub_self]
      rfl

/-- Every word that opens a block is closed by a later one. -/
def AllClosed : List Op → Prop
  | [] => True
  | op :: w => (op.opens = true → ClosedIn op w) ∧ AllClosed w

theorem ClosedIn.append {op : Op} {w : List Op} (h : ClosedIn op w) (d : List Op) :
    ClosedIn op (w ++ d) := by
  obtain ⟨b, closer, w', rfl, hclosed⟩ := h
  exact ⟨b, closer, w' ++ d, by simp, hclosed⟩

theorem AllClosed.append {w d : List Op} (hc : AllClosed w) (hd : AllClosed d) :
    AllClosed (w ++ d) := by
  induction w with
  | nil => exact hd
  | cons op w ih => exact ⟨fun ho => (hc.1 ho).append d, ih hc.2⟩

theorem AllClosed.closedIn {w d : List Op} {op : Op} (h : AllClosed (w ++ op :: d))
    (ho : op.opens = true) : ClosedIn op d := by
  induction w with
  | nil => exact h.1 ho
  | cons _ w ih => exact ih h.2

theorem AllClosed.close {w : List Op} (h : AllClosed w) : AllClosed (.close :: w) :=
  ⟨by simp [Op.opens], h⟩

/-- In a block, all openers are closed. -/
theorem allClosed_ops (b : Block) : AllClosed b.ops := by
  induction b with
  | nil => trivial
  | plain i rest ih =>
    refine ⟨fun ho => ?_, ih⟩
    have hi := i.isPlain
    revert hi ho
    cases i.instr.op <;> simp [Op.opens, Op.isBlockWord]
  | when yes rest ihy ih =>
    rw [Block.ops, List.cons_append]
    exact ⟨fun _ => ⟨yes, .close, rest.ops, rfl, rfl⟩, ihy.append ih.close⟩
  | choice yes no rest ihy ihn ih =>
    rw [Block.ops, List.cons_append, List.cons_append, List.append_assoc, List.cons_append]
    exact ⟨fun _ => ⟨yes, .otherwise, no.ops ++ .close :: rest.ops, rfl, rfl⟩,
      ihy.append ⟨fun _ => ⟨no, .close, rest.ops, rfl, rfl⟩, ihn.append ih.close⟩⟩
  | loop condition body rest ihc ihb ih =>
    rw [Block.ops, List.cons_append, List.cons_append, List.append_assoc, List.cons_append]
    exact ⟨fun _ => ⟨condition, .body, body.ops ++ .close :: rest.ops, rfl, rfl⟩,
      ihc.append ⟨fun _ => ⟨body, .close, rest.ops, rfl, rfl⟩, ihb.append ih.close⟩⟩

/-- No block goes on with a word that would close something in front of it. -/
theorem ops_ne_append_closer {b b' : Block} {op closer : Op} {d : List Op}
    (h : op.closedBy closer = true) : b.ops ≠ b'.ops ++ closer :: d := by
  intro hb
  have hread := readAll_block b
  rw [hb, readAll_append (readAll_block b'), readAll] at hread
  have hnone : read? ⟨[], b'.erase⟩ closer = none := by
    revert h
    cases op <;> cases closer <;> simp [Op.closedBy, read?]
  rw [hnone] at hread
  cases hread

/-- **The innermost open block of a reader is the last word that is left open.** -/
theorem isGreatest_leftOpen (f : Frame) (fs : List Frame) (last : Block) :
    IsGreatest {a | LeftOpen (ops ⟨f :: fs, last⟩) a} (Frame.opsOf fs ++ f.front).length := by
  have hops : ops ⟨f :: fs, last⟩ = (Frame.opsOf fs ++ f.front) ++ f.opener :: last.ops := by
    simp [ops, Frame.opsOf, Frame.ops]
  rw [hops]
  refine ⟨⟨⟨f.opener, by simp, by cases f <;> rfl⟩, fun z hz => ?_⟩, fun a ha => ?_⟩
  · obtain ⟨b, closer, d, hd, hclosed, -⟩ := closedAt_iff.1 hz
    exact ops_ne_append_closer hclosed hd
  · by_contra hlt
    obtain ⟨⟨op, hop, hopens⟩, hopen⟩ := ha
    -- the word stands inside the last block, where all openers are closed
    obtain ⟨n, rfl⟩ := Nat.exists_eq_add_of_lt (Nat.lt_of_not_le hlt)
    have hn : last.ops[n]? = some op := by
      rw [← hop, List.getElem?_append_right (by omega),
        show ∀ m, m + n + 1 - m = n + 1 by omega, List.getElem?_cons_succ]
    have hsplit := eq_take_cons_drop hn
    obtain ⟨b, closer, d, hd, hclosed⟩ := (hsplit ▸ allClosed_ops last).closedIn hopens
    have hlen : n < last.ops.length := (List.getElem?_eq_some_iff.1 hn).1
    have h := closedAt_iff (w := (Frame.opsOf fs ++ f.front) ++ f.opener :: last.ops.take n)
      |>.2 ⟨b, closer, d, hd, hclosed, rfl⟩
    rw [List.append_assoc _ (f.opener :: _), List.cons_append, ← hsplit, List.length_append,
      List.length_cons, List.length_take, Nat.min_eq_left hlen.le] at h
    exact hopen _ h

/-! ## The complaints of the linker -/

/-- The reason for blaming a word is never that a block is unterminated. -/
theorem reason_mismatch {r : Reader} {op : Op} (h : r.read? op = none) :
    (r.mismatch op).reason ≠ "unterminated block" := by
  obtain ⟨frames, last⟩ := r
  rcases closer_of_read? h with rfl | rfl | rfl <;> rcases frames with _ | ⟨f, fs⟩ <;>
    intro hreason <;> have hhead := congrArg (fun s : String => s.toList.head?) hreason <;>
    simp [mismatch, StructureError.reason, Op.name] at hhead

namespace Program

variable {p : Program}

theorem link_complaint (hp : p.linked = false) :
    p.link.2 =
      match readAll {} p.ops with
      | .ok ⟨[], _⟩ => none
      | .ok ⟨f :: fs, _⟩ =>
        some (.structural ⟨(Frame.opsOf fs ++ f.front).length, f.opener, .unterminated⟩)
      | .error (r, op) => some (.structural (r.mismatch op)) := by
  rw [link_eq p hp]
  rcases readAll {} p.ops with ⟨r, op⟩ | ⟨_ | ⟨f, fs⟩, last⟩ <;> rfl

/-- A program that is linked already cannot be linked. -/
theorem linked_eq_false_of_link (h : p.link.2 = none) : p.linked = false := by
  by_contra hp
  rw [link, if_pos (Bool.eq_true_of_not_eq_false hp)] at h
  cases h

/-- Of a program that is not linked yet, linking complains about its blocks only. -/
theorem exists_structural (hp : p.linked = false) (h : p.link.2 ≠ none) :
    ∃ e, p.link.2 = some (.structural e) := by
  revert h
  rw [link_complaint hp]
  rcases readAll {} p.ops with ⟨r, op⟩ | ⟨_ | ⟨f, fs⟩, last⟩
  · exact fun _ => ⟨_, rfl⟩
  · exact fun h => absurd rfl h
  · exact fun _ => ⟨_, rfl⟩

/-- Linking succeeds just on the words of blocks. -/
theorem link_eq_none_iff (hp : p.linked = false) :
    p.link.2 = none ↔ ∃ b : Block, p.ops = b.ops := by
  rw [exists_block_iff, link_complaint hp]
  cases readAll {} p.ops with
  | error e => simp
  | ok r =>
    obtain ⟨_ | ⟨f, fs⟩, last⟩ := r
    · simp
    · simp

/-- A complaint about a word comes from a word that does not fit. -/
theorem exists_of_link_blames (hp : p.linked = false) {e : StructureError}
    (he : p.link.2 = some (.structural e)) (hr : e.reason ≠ "unterminated block") :
    ∃ r op, readAll {} p.ops = .error (r, op) ∧ e = r.mismatch op := by
  rw [link_complaint hp] at he
  cases hread : readAll {} p.ops with
  | error x =>
    rw [hread] at he
    cases he
    exact ⟨x.1, x.2, rfl, rfl⟩
  | ok r =>
    obtain ⟨_ | ⟨f, fs⟩, last⟩ := r
    · rw [hread] at he
      cases he
    · rw [hread] at he
      cases he
      exact absurd rfl hr

theorem link_of_readAll_error (hp : p.linked = false) {r : Reader} {op : Op}
    (h : readAll {} p.ops = .error (r, op)) :
    p.link.2 = some (.structural (r.mismatch op)) ∧
      (r.mismatch op).reason ≠ "unterminated block" := by
  obtain ⟨_, _, _, _, hnone⟩ := exists_of_readAll_error h
  exact ⟨by rw [link_complaint hp, h], reason_mismatch hnone⟩

/-- **Linking recognises blocks, and says where they go wrong.**  It succeeds on the words of
blocks and on nothing else.  It blames a word just if that is the first one after which the words
are no longer viable, and the word is an `ELSE`, an `END` or a `DO`.  Words that are viable, but no
whole block, are blamed on the last word that is left open. -/
theorem link_diagnosis (hp : p.linked = false) :
    (p.link.2 = none ↔ ∃ b : Block, p.ops = b.ops) ∧
    (∀ i, (∃ e, p.link.2 = some (.structural e) ∧ e.reason ≠ "unterminated block" ∧ e.addr = i) ↔
      IsLeast {i | i < p.size ∧ ¬ Viable (p.ops.take (i + 1))} i) ∧
    (∀ e, p.link.2 = some (.structural e) → e.reason ≠ "unterminated block" →
      p.ops[e.addr]? = some e.op ∧ (e.op = .otherwise ∨ e.op = .close ∨ e.op = .body)) ∧
    (Viable p.ops → (¬ ∃ b : Block, p.ops = b.ops) →
      ∃ e, p.link.2 = some (.structural e) ∧ e.reason = "unterminated block" ∧
        IsGreatest {a | LeftOpen p.ops a} e.addr ∧ p.ops[e.addr]? = some e.op) := by
  refine ⟨link_eq_none_iff hp, fun i => ⟨?_, fun hi => ?_⟩, fun e he hr => ?_, fun hv hb => ?_⟩
  · rintro ⟨e, he, hr, rfl⟩
    obtain ⟨r, op, hread, rfl⟩ := exists_of_link_blames hp he hr
    rw [← length_ops]
    exact (isLeast_of_readAll_error hread).1
  · have hnot : ¬ Viable p.ops := fun hv => hi.1.2 (hv.of_prefix (List.take_prefix _ _))
    rw [viable_iff] at hnot
    cases hread : readAll {} p.ops with
    | ok r => exact absurd ⟨r, hread⟩ hnot
    | error x =>
      obtain ⟨hlink, hreason⟩ := link_of_readAll_error hp hread
      refine ⟨_, hlink, hreason, ?_⟩
      rw [← length_ops] at hi
      exact (isLeast_of_readAll_error hread).1.unique hi
  · obtain ⟨r, op, hread, rfl⟩ := exists_of_link_blames hp he hr
    obtain ⟨_, _, _, _, hnone⟩ := exists_of_readAll_error hread
    exact ⟨(isLeast_of_readAll_error hread).2, closer_of_read? hnone⟩
  · obtain ⟨⟨frames, last⟩, hread⟩ := viable_iff.1 hv
    cases frames with
    | nil => exact absurd (exists_block_iff.2 ⟨last, hread⟩) hb
    | cons f fs =>
      have hops : Reader.ops ⟨f :: fs, last⟩ = p.ops := ops_of_readAll hread
      refine ⟨_, by rw [link_complaint hp, hread], rfl, ?_, ?_⟩
      · exact hops ▸ isGreatest_leftOpen f fs last
      · exact getElem?_opener (by rw [List.append_nil]; exact hops.symm)

/-- An `ELSE` that meets a `WHILE` is blamed itself; where a `DO` follows instead, it is the one
left open. -/
theorem link_diagnosis_crossed :
    let p : Program := { code := #[⟨.branch, 0⟩, ⟨.loop, 0⟩, ⟨.otherwise, 0⟩, ⟨.close, 0⟩] }
    let q : Program := { code := #[⟨.branch, 0⟩, ⟨.loop, 0⟩, ⟨.pushTrue, 0⟩, ⟨.body, 0⟩] }
    (p.linked = false ∧ IsLeast {i | i < p.size ∧ ¬ Viable (p.ops.take (i + 1))} 2) ∧
      q.linked = false ∧ p.link.2 = some (.structural ⟨2, .otherwise, .wrongBlock .loop 1⟩) ∧
      q.link.2 = some (.structural ⟨3, .body, .unterminated⟩) ∧
      ¬ ∃ b : Block, q.ops = b.ops := by
  intro p q
  have hp : p.link.2 = some (.structural ⟨2, .otherwise, .wrongBlock .loop 1⟩) := by decide
  have hq : q.link.2 = some (.structural ⟨3, .body, .unterminated⟩) := by decide
  refine ⟨⟨rfl, ?_⟩, rfl, hp, hq, fun hb => ?_⟩
  · exact ((link_diagnosis (p := p) rfl).2.1 2).1 ⟨_, hp, by decide, rfl⟩
  · rw [(link_diagnosis (p := q) rfl).1.2 hb] at hq
    cases hq

end Program

end StackLang

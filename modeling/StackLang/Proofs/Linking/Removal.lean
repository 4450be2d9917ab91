import StackLang.Proofs.Linking.Diagnosis

/-!
# Leaving out a word

A program that has lost one of the words of its blocks is not linked to something else unnoticed,
unless that word is an `ELSE`.  The words that are left may pair up in quite another way, so there
is no following what becomes of the blocks.  But the words of blocks are `Counted`: there are as
many `END`s as `IF`s and `WHILE`s together, and as many `DO`s as `WHILE`s.  One word less upsets
this, however the others pair up (`Counted.not_without`).  An `ELSE` is not counted, and without it
the two parts of its choice are one block behind the `IF` (`exists_ops_without_otherwise`).
-/

set_option autoImplicit false

namespace StackLang

/-- The second words are the first ones with one `op` left out. -/
inductive Without (op : Op) : List Op → List Op → Prop
  | head (w : List Op) : Without op (op :: w) w
  | tail (o : Op) {w w' : List Op} : Without op w w' → Without op (o :: w) (o :: w')

namespace Without

variable {op o : Op} {l m w w' : List Op}

theorem of_eraseIdx {a : Nat} (h : w[a]? = some op) : Without op w (w.eraseIdx a) := by
  induction w generalizing a with
  | nil => cases h
  | cons o w ih =>
    cases a with
    | zero =>
      cases h
      exact .head w
    | succ a => exact .tail o (ih h)

theorem perm (h : Without op w w') : w.Perm (op :: w') := by
  induction h with
  | head w => rfl
  | tail o _ ih => exact (ih.cons o).trans (.swap _ _ _)

theorem cons_cases (h : Without op (o :: w) w') :
    (o = op ∧ w' = w) ∨ ∃ t, Without op w t ∧ w' = o :: t := by
  cases h with
  | head => exact .inl ⟨rfl, rfl⟩
  | tail _ h => exact .inr ⟨_, h, rfl⟩

theorem exists_tail (h : Without op (o :: w) w') (hne : o ≠ op) :
    ∃ t, Without op w t ∧ w' = o :: t :=
  h.cons_cases.resolve_left fun hhead => hne hhead.1

theorem append_cases (h : Without op (l ++ m) w) :
    (∃ t, Without op l t ∧ w = t ++ m) ∨ ∃ t, Without op m t ∧ w = l ++ t := by
  induction l generalizing w with
  | nil => exact .inr ⟨w, h, rfl⟩
  | cons o l ih =>
    rcases h.cons_cases with ⟨rfl, rfl⟩ | ⟨w, hw, rfl⟩
    · exact .inl ⟨l, .head l, rfl⟩
    · rcases ih hw with ⟨t, ht, rfl⟩ | ⟨t, ht, rfl⟩
      · exact .inl ⟨o :: t, .tail o ht, rfl⟩
      · exact .inr ⟨t, ht, rfl⟩

end Without

variable {op : Op} {w w' : List Op}

theorem PlainInstr.op_ne (i : PlainInstr) (h : op.isBlockWord = true) : i.instr.op ≠ op := by
  rintro rfl
  cases i.isPlain.symm.trans h

/-! ## Counting words -/

/-- There is an `END` for every `IF` and every `WHILE`, and a `DO` for every `WHILE`. -/
def Counted (w : List Op) : Prop :=
  w.count .close = w.count .branch + w.count .loop ∧ w.count .body = w.count .loop

/-- **The words of blocks are counted.** -/
theorem Block.counted_ops (b : Block) : Counted b.ops := by
  rw [Counted]
  induction b with
  | nil => exact ⟨rfl, rfl⟩
  | plain i rest ih =>
    have hcount (op : Op) (hop : op.isBlockWord = true) :
        (plain i rest).ops.count op = rest.ops.count op :=
      List.count_cons_of_ne (i.op_ne hop)
    rw [hcount _ rfl, hcount _ rfl, hcount _ rfl, hcount _ rfl]
    exact ih
  | when yes rest ihy ih =>
    simp [ops]
    omega
  | choice yes no rest ihy ihn ih =>
    simp [ops]
    omega
  | loop condition body rest ihc ihb ih =>
    simp [ops]
    omega

/-- Counted words are no longer counted when one of them is left out. -/
theorem Counted.not_without (h : Counted w) (hw : Without op w w')
    (hop : op = .branch ∨ op = .loop ∨ op = .body ∨ op = .close) : ¬ Counted w' := by
  simp only [Counted, hw.perm.count_eq, List.count_cons] at h ⊢
  rcases hop with rfl | rfl | rfl | rfl <;> simp at h <;> omega

/-! ## One `ELSE` less -/

/-- **Without one of its `ELSE`s, a block is a block still**: the two parts of the choice are
joined. -/
theorem Block.exists_ops_without_otherwise {b : Block} (h : Without .otherwise b.ops w) :
    ∃ c : Block, w = c.ops := by
  induction b generalizing w with
  | nil => cases h
  | plain i rest ih =>
    obtain ⟨_, hrest, rfl⟩ := h.exists_tail (i.op_ne rfl)
    obtain ⟨c, rfl⟩ := ih hrest
    exact ⟨.plain i c, rfl⟩
  | when yes rest ihy ih =>
    rcases h.append_cases with ⟨_, hfront, rfl⟩ | ⟨_, hback, rfl⟩
    · obtain ⟨_, hyes, rfl⟩ := hfront.exists_tail (by decide)
      obtain ⟨c, rfl⟩ := ihy hyes
      exact ⟨.when c rest, rfl⟩
    · obtain ⟨_, hrest, rfl⟩ := hback.exists_tail (by decide)
      obtain ⟨c, rfl⟩ := ih hrest
      exact ⟨.when yes c, rfl⟩
  | choice yes no rest ihy ihn ih =>
    rcases h.append_cases with ⟨_, hfront, rfl⟩ | ⟨_, hback, rfl⟩
    · rcases hfront.append_cases with ⟨_, hfirst, rfl⟩ | ⟨_, hsecond, rfl⟩
      · obtain ⟨_, hyes, rfl⟩ := hfirst.exists_tail (by decide)
        obtain ⟨c, rfl⟩ := ihy hyes
        exact ⟨.choice c no rest, rfl⟩
      · rcases hsecond.cons_cases with ⟨-, rfl⟩ | ⟨_, hno, rfl⟩
        · -- the `ELSE` of this choice: what stood around it is one part now
          exact ⟨.when (yes.append no) rest, by simp [ops]⟩
        · obtain ⟨c, rfl⟩ := ihn hno
          exact ⟨.choice yes c rest, rfl⟩
    · obtain ⟨_, hrest, rfl⟩ := hback.exists_tail (by decide)
      obtain ⟨c, rfl⟩ := ih hrest
      exact ⟨.choice yes no c, rfl⟩
  | loop condition body rest ihc ihb ih =>
    rcases h.append_cases with ⟨_, hfront, rfl⟩ | ⟨_, hback, rfl⟩
    · rcases hfront.append_cases with ⟨_, hfirst, rfl⟩ | ⟨_, hsecond, rfl⟩
      · obtain ⟨_, hcond, rfl⟩ := hfirst.exists_tail (by decide)
        obtain ⟨c, rfl⟩ := ihc hcond
        exact ⟨.loop c body rest, rfl⟩
      · obtain ⟨_, hbody, rfl⟩ := hsecond.exists_tail (by decide)
        obtain ⟨c, rfl⟩ := ihb hbody
        exact ⟨.loop condition c rest, rfl⟩
    · obtain ⟨_, hrest, rfl⟩ := hback.exists_tail (by decide)
      obtain ⟨c, rfl⟩ := ih hrest
      exact ⟨.loop condition body c, rfl⟩

namespace Program

variable {p q : Program}

/-- **No word of a block is lost unnoticed, but an `ELSE`.**  Linking refuses a program that can be
linked when one of its `IF`s, `WHILE`s, `DO`s or `END`s is left out, whichever that is and whatever
the immediates are, and accepts it without one of its `ELSE`s. -/
theorem link_without_word {a : Nat} (hlink : p.link.2 = none) (hop : p.ops[a]? = some op)
    (hq : q.linked = false) (hops : q.ops = p.ops.eraseIdx a) :
    (op = .branch ∨ op = .loop ∨ op = .body ∨ op = .close →
      ∃ e, q.link.2 = some (.structural e)) ∧
    (op = .otherwise → q.link.2 = none) := by
  obtain ⟨b, hb⟩ := (link_eq_none_iff (linked_eq_false_of_link hlink)).1 hlink
  have hwithout : Without op b.ops q.ops := by
    rw [hops, ← hb]
    exact .of_eraseIdx hop
  refine ⟨fun hword => exists_structural hq fun hnone => ?_, ?_⟩
  · obtain ⟨c, hc⟩ := (link_eq_none_iff hq).1 hnone
    exact b.counted_ops.not_without hwithout hword (hc ▸ c.counted_ops)
  · rintro rfl
    exact (link_eq_none_iff hq).2 (Block.exists_ops_without_otherwise hwithout)

/-- Without its `END`, the loop takes over the one of the choice around it, which then has none; and
without the `ELSE`, the loop stands behind the `IF`. -/
theorem link_without_word_nested :
    let p : Program :=
      { code := #[⟨.branch, 0⟩, ⟨.push, 7⟩, ⟨.otherwise, 0⟩, ⟨.loop, 0⟩, ⟨.pushTrue, 0⟩, ⟨.body, 0⟩,
          ⟨.close, 0⟩, ⟨.close, 0⟩] }
    let q : Program :=
      { code := #[⟨.branch, 4⟩, ⟨.push, 7⟩, ⟨.otherwise, 3⟩, ⟨.loop, 2⟩, ⟨.pushTrue, 0⟩, ⟨.body, 1⟩,
          ⟨.close, 0⟩] }
    let r : Program :=
      { code := #[⟨.branch, 5⟩, ⟨.push, 7⟩, ⟨.loop, 0⟩, ⟨.pushTrue, 0⟩, ⟨.body, 0⟩, ⟨.close, 9⟩,
          ⟨.close, 0⟩] }
    (p.link.2 = none ∧ p.ops[6]? = some .close ∧ q.ops = p.ops.eraseIdx 6 ∧
      p.ops[2]? = some .otherwise ∧ r.ops = p.ops.eraseIdx 2) ∧
      (∃ e, q.link.2 = some (.structural e)) ∧ r.link.2 = none := by
  intro p q r
  have hp : p.link.2 = none := by decide
  refine ⟨⟨hp, rfl, rfl, rfl, rfl⟩, ?_, ?_⟩
  · exact (link_without_word (p := p) (q := q) (a := 6) hp rfl rfl rfl).1 (by decide)
  · exact (link_without_word (p := p) (q := r) (a := 2) hp rfl rfl rfl).2 rfl

end Program

end StackLang

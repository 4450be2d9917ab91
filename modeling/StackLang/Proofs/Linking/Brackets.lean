import StackLang.Proofs.Linking.Constructs
import StackLang.Proofs.Linking.Diagnosis

/-!
# Pairing words off

`Brackets w J` says that the relation `J` pairs the words of `w` off as brackets are: each word that
opens a block with one later word that closes it, and no two pairs across each other.  The words of
a block are paired off by its joints (`brackets_joints`), and two words are a joint just if the
second can close the first and a whole block stands in between (`mem_joints_iff`).  Conversely words
that are paired off in any way are those of a block (`exists_block`), and there is no other way to
pair them off (`unique_pairing`).

For the converse one looks at the words up to an address `k`: the reader has kept exactly the
openers before `k` whose partner is still to come (`readAll_pending`).
-/

set_option autoImplicit false

namespace StackLang

/-- Whether a word closes an earlier one. -/
def Op.closes : Op → Bool
  | otherwise | close | body => true
  | _ => false

theorem Op.opens_of_closedBy {o c : Op} (h : o.closedBy c = true) : o.opens = true := by
  cases o <;> first | rfl | cases h

theorem Op.closes_of_closedBy {o c : Op} (h : o.closedBy c = true) : c.closes = true := by
  cases c <;> first | rfl | (cases o <;> cases h)

theorem Op.isBlockWord_of_opens {o : Op} (h : o.opens = true) : o.isBlockWord = true := by
  cases o <;> first | rfl | cases h

theorem Op.isBlockWord_of_closes {o : Op} (h : o.closes = true) : o.isBlockWord = true := by
  cases o <;> first | rfl | cases h

/-- `J` pairs the words off: `J a z` if the word at `z` closes the word at `a`. -/
structure Brackets (w : List Op) (J : Nat → Nat → Prop) : Prop where
  fits : ∀ {a z}, J a z → ∃ o c, w[a]? = some o ∧ w[z]? = some c ∧ o.closedBy c = true
  forward : ∀ {a z}, J a z → a < z
  closed : ∀ {a o}, w[a]? = some o → o.opens = true → ∃ z, J a z
  closes : ∀ {z c}, w[z]? = some c → c.closes = true → ∃ a, J a z
  unique : ∀ {a z a' z'}, J a z → J a' z' → (a = a' ↔ z = z')
  nests : ∀ {a z a' z'}, J a z → J a' z' → a < a' → a' < z → z' < z

/-! ## The joints of a block -/

namespace Construct

variable {c : Construct} {a z : Nat} {o : Op}

theorem words_of_joint (h : (a, z) ∈ c.joints) :
    ∃ o o', (a, o) ∈ c.words ∧ (z, o') ∈ c.words ∧ o.closedBy o' = true := by
  cases c with
  | when i z' =>
    obtain ⟨rfl, rfl⟩ := mem_joints_when.1 h
    exact ⟨.branch, .close, by simp, by simp, rfl⟩
  | choice i e z' =>
    rcases mem_joints_choice.1 h with ⟨rfl, rfl⟩ | ⟨rfl, rfl⟩
    · exact ⟨.branch, .otherwise, by simp, by simp, rfl⟩
    · exact ⟨.otherwise, .close, by simp, by simp, rfl⟩
  | loop w d z' =>
    rcases mem_joints_loop.1 h with ⟨rfl, rfl⟩ | ⟨rfl, rfl⟩
    · exact ⟨.loop, .body, by simp, by simp, rfl⟩
    · exact ⟨.body, .close, by simp, by simp, rfl⟩

theorem exists_joint_of_opens (h : (a, o) ∈ c.words) (ho : o.opens = true) :
    ∃ z, (a, z) ∈ c.joints := by
  cases c with
  | when i z' =>
    rcases mem_words_when.1 h with ⟨rfl, rfl⟩ | ⟨rfl, rfl⟩
    · exact ⟨z', by simp⟩
    · cases ho
  | choice i e z' =>
    rcases mem_words_choice.1 h with ⟨rfl, rfl⟩ | ⟨rfl, rfl⟩ | ⟨rfl, rfl⟩
    · exact ⟨e, by simp⟩
    · exact ⟨z', by simp⟩
    · cases ho
  | loop w d z' =>
    rcases mem_words_loop.1 h with ⟨rfl, rfl⟩ | ⟨rfl, rfl⟩ | ⟨rfl, rfl⟩
    · exact ⟨d, by simp⟩
    · exact ⟨z', by simp⟩
    · cases ho

theorem exists_joint_of_closes (h : (z, o) ∈ c.words) (ho : o.closes = true) :
    ∃ a, (a, z) ∈ c.joints := by
  cases c with
  | when i z' =>
    rcases mem_words_when.1 h with ⟨rfl, rfl⟩ | ⟨rfl, rfl⟩
    · cases ho
    · exact ⟨i, by simp⟩
  | choice i e z' =>
    rcases mem_words_choice.1 h with ⟨rfl, rfl⟩ | ⟨rfl, rfl⟩ | ⟨rfl, rfl⟩
    · cases ho
    · exact ⟨i, by simp⟩
    · exact ⟨e, by simp⟩
  | loop w d z' =>
    rcases mem_words_loop.1 h with ⟨rfl, rfl⟩ | ⟨rfl, rfl⟩ | ⟨rfl, rfl⟩
    · cases ho
    · exact ⟨w, by simp⟩
    · exact ⟨d, by simp⟩

end Construct

namespace Block

/-- **The joints of a block pair its words off.** -/
theorem brackets_joints (b : Block) : Brackets b.ops fun a z => (a, z) ∈ b.joints 0 where
  fits h := by
    obtain ⟨c, hc, hj⟩ := mem_joints.1 h
    obtain ⟨o, o', ho, ho', hclosed⟩ := Construct.words_of_joint hj
    exact ⟨o, o', getElem?_ops_of_mem_words hc ho, getElem?_ops_of_mem_words hc ho', hclosed⟩
  forward h := (within_joints 0 b _ h).2.1
  closed h ho := by
    obtain ⟨c, hc, hw⟩ := exists_construct h (Op.isBlockWord_of_opens ho)
    obtain ⟨z, hz⟩ := Construct.exists_joint_of_opens hw ho
    exact ⟨z, mem_joints.2 ⟨c, hc, hz⟩⟩
  closes h ho := by
    obtain ⟨c, hc, hw⟩ := exists_construct h (Op.isBlockWord_of_closes ho)
    obtain ⟨a, ha⟩ := Construct.exists_joint_of_closes hw ho
    exact ⟨a, mem_joints.2 ⟨c, hc, ha⟩⟩
  unique h h' := (nests_joints 0 b _ h _ h').1
  nests h h' := (nests_joints 0 b _ h _ h').2

end Block

/-! ## The word that closes another -/

/-- No two words close the same one. -/
theorem ClosedAt.unique {w : List Op} {a z z' : Nat} (h : ClosedAt w a z) (h' : ClosedAt w a z') :
    z = z' := by
  obtain ⟨-, -, opener, -, ho, -⟩ := id h
  obtain ⟨u, d, rfl, rfl⟩ : ∃ u d, w = u ++ opener :: d ∧ a = u.length := by
    refine ⟨w.take a, w.drop (a + 1), eq_take_cons_drop ho, ?_⟩
    rw [List.length_take, Nat.min_eq_left (List.getElem?_eq_some_iff.1 ho).1.le]
  obtain ⟨b, c, d₁, rfl, hc, rfl⟩ := closedAt_iff.1 h
  obtain ⟨b', c', d₂, hd, hc', rfl⟩ := closedAt_iff.1 h'
  -- one of the blocks in between is the beginning of the other, and does not go on
  rcases List.append_eq_append_iff.1 hd with ⟨_ | ⟨o, m⟩, hb, hm⟩ | ⟨_ | ⟨o, m⟩, hb, hm⟩
  · rw [Block.size, Block.size, hb, List.append_nil]
  · cases hm
    exact absurd hb (ops_ne_append_closer hc)
  · rw [Block.size, Block.size, hb, List.append_nil]
  · cases hm
    exact absurd hb (ops_ne_append_closer hc')

namespace Block

variable {x y : Nat}

/-- In each joint of the block, wherever it stands, the second word closes the first. -/
def JointsClosed (b : Block) : Prop :=
  ∀ {u : List Op} (v : List Op) {a x y : Nat}, u.length = a → (x, y) ∈ b.joints a →
    ClosedAt (u ++ (b.ops ++ v)) x y

theorem closedAt_first {b : Block} {o o' : Op} (h : o.closedBy o' = true) (u v : List Op) :
    ClosedAt (u ++ o :: (b.ops ++ o' :: v)) u.length (u.length + 1 + b.size) :=
  closedAt_iff.2 ⟨b, o', v, rfl, h, rfl⟩

/-- The pairs of two blocks, with the words around them, and of a third block behind. -/
theorem closedAt_of_mem_partJoints {b c rest : Block} {o o' : Op} {u : List Op}
    (ho : o.closedBy o' = true) (ho' : o'.closedBy .close = true) (hb : b.JointsClosed)
    (hc : c.JointsClosed) (hrest : rest.JointsClosed) (v : List Op)
    (h : (x, y) ∈ partJoints u.length b c rest) :
    ClosedAt (u ++ o :: (b.ops ++ o' :: (c.ops ++ .close :: (rest.ops ++ v)))) x y := by
  simp only [partJoints, List.mem_cons, List.mem_append] at h
  rcases h with h | h | (h | h) | h
  · cases h
    exact closedAt_first ho u _
  · cases h
    have hsecond := closedAt_first (b := c) ho' (u ++ o :: b.ops) (rest.ops ++ v)
    simpa [Nat.add_assoc, Nat.add_comm 1] using hsecond
  · simpa using hb (u := u ++ [o]) (o' :: (c.ops ++ .close :: (rest.ops ++ v))) (by simp) h
  · have hlen : (u ++ o :: b.ops ++ [o']).length = u.length + 1 + b.size + 1 := by simp; omega
    simpa using hc (.close :: (rest.ops ++ v)) hlen h
  · have hlen : (u ++ o :: b.ops ++ o' :: c.ops ++ [Op.close]).length =
        u.length + 1 + b.size + 1 + c.size + 1 := by simp; omega
    simpa using hrest v hlen h

theorem jointsClosed (b : Block) : b.JointsClosed := by
  induction b with
  | nil =>
    intro u v a x y _ h
    cases h
  | plain i rest ih =>
    rintro u v a x y rfl h
    simpa [ops] using ih (u := u ++ [i.instr.op]) v (by simp) h
  | when yes rest ihy ih =>
    rintro u v a x y rfl h
    simp only [ops, List.append_assoc, List.cons_append]
    rw [joints_when, List.mem_append, List.mem_cons] at h
    rcases h with (h | h) | h
    · cases h
      exact closedAt_first rfl u _
    · have hyes := ihy (u := u ++ [.branch]) (.close :: (rest.ops ++ v)) (by simp) h
      simpa using hyes
    · have hlen : (u ++ Op.branch :: yes.ops ++ [Op.close]).length =
          u.length + 1 + yes.size + 1 := by simp; omega
      simpa using ih v hlen h
  | choice yes no rest ihy ihn ih =>
    rintro u v a x y rfl h
    rw [joints_choice] at h
    simpa [ops] using closedAt_of_mem_partJoints rfl rfl ihy ihn ih v h
  | loop condition body rest ihc ihb ih =>
    rintro u v a x y rfl h
    rw [joints_loop] at h
    simpa [ops] using closedAt_of_mem_partJoints rfl rfl ihc ihb ih v h

/-- **The joints of a block are the pairs of words of which the second closes the first.** -/
theorem mem_joints_iff (b : Block) : (x, y) ∈ b.joints 0 ↔ ClosedAt b.ops x y := by
  have hclosed {y : Nat} (h : (x, y) ∈ b.joints 0) : ClosedAt b.ops x y := by
    simpa using b.jointsClosed [] List.length_nil h
  refine ⟨hclosed, fun h => ?_⟩
  obtain ⟨-, -, o, c, ho, -, hfits⟩ := id h
  obtain ⟨y', hy'⟩ := b.brackets_joints.closed ho (Op.opens_of_closedBy hfits)
  rwa [h.unique (hclosed hy')]

end Block

/-! ## What a reader has kept -/

namespace Reader

theorem lt_of_mem_addresses {fs : List Frame} {a : Nat} (h : a ∈ Frame.addresses fs) :
    a < (Frame.opsOf fs).length := by
  induction fs with
  | nil => cases h
  | cons f fs ih =>
    simp only [Frame.opsOf, Frame.ops, List.length_append, List.length_singleton]
    rcases List.mem_cons.1 h with rfl | h
    · simp only [List.length_append]
      omega
    · have := ih h
      omega

/-- The innermost block was opened last. -/
theorem pairwise_opened (r : Reader) : r.opened.Pairwise (· > ·) := by
  obtain ⟨fs, last⟩ := r
  show (Frame.addresses fs).Pairwise (· > ·)
  induction fs with
  | nil => exact .nil
  | cons f fs ih =>
    refine .cons (fun a ha => ?_) ih
    have := lt_of_mem_addresses ha
    simp only [List.length_append]
    omega

theorem opened_read? {r t : Reader} {op : Op} (h : r.read? op = some t) :
    t.opened = (if op.opens then [r.size] else []) ++
      (if op.closes then r.opened.tail else r.opened) := by
  obtain ⟨fs, last⟩ := r
  by_cases hop : op.isBlockWord = false
  · rw [read?_plain _ hop, Option.some_inj] at h
    have hopens : op.opens = false := by cases op <;> first | rfl | cases hop
    have hcloses : op.closes = false := by cases op <;> first | rfl | cases hop
    simp [← h, opened, hopens, hcloses]
  · rcases op <;> first | exact absurd rfl hop | skip
    all_goals
      rcases fs with _ | ⟨f | f | f | f, fs⟩ <;> simp only [read?] at h <;> cases h
    all_goals
      simp [opened, Frame.addresses, Op.opens, Op.closes, size, ops, Frame.opsOf, Frame.ops,
        Frame.front, Frame.opener]

theorem mem_tail_opened {r : Reader} {a₀ a : Nat} (h : r.opened.head? = some a₀) :
    a ∈ r.opened.tail ↔ a ∈ r.opened ∧ a ≠ a₀ := by
  have hsorted := r.pairwise_opened
  cases ho : r.opened with
  | nil => rw [ho] at h; cases h
  | cons b rest =>
    rw [ho] at h hsorted
    cases h
    have hlt := (List.pairwise_cons.1 hsorted).1
    simp only [List.tail_cons, List.mem_cons]
    constructor
    · intro ha
      exact ⟨.inr ha, Nat.ne_of_lt (hlt a ha)⟩
    · rintro ⟨rfl | ha, hne⟩
      · exact absurd rfl hne
      · exact ha

/-- A word that can close the innermost opener is read. -/
theorem exists_read? {r : Reader} {a : Nat} {o op : Op} (ha : r.opened.head? = some a)
    (ho : r.ops[a]? = some o) (h : o.closedBy op = true) : ∃ t, r.read? op = some t := by
  obtain ⟨fs, last⟩ := r
  cases fs with
  | nil => cases ha
  | cons f fs =>
    cases ha
    have hopener : ops ⟨f :: fs, last⟩ = (Frame.opsOf fs ++ f.front) ++ f.opener :: last.ops := by
      simp [ops, Frame.opsOf, Frame.ops]
    rw [hopener, List.getElem?_append_right (Nat.le_refl _), Nat.sub_self] at ho
    cases ho
    cases f <;> cases op <;> first | exact ⟨_, rfl⟩ | cases h

end Reader

namespace Brackets

open Reader

variable {w : List Op} {J J' : Nat → Nat → Prop} {a z k : Nat} {r : Reader}

/-- The partner of `a` stands at `k` or later. -/
def Pending (J : Nat → Nat → Prop) (k a : Nat) : Prop := a < k ∧ ∃ z, k ≤ z ∧ J a z

/-- One word further, its own partner is to come, and its opener has been closed. -/
theorem pending_succ (h : Brackets w J) :
    Pending J (k + 1) a ↔ (a = k ∧ ∃ z, J k z) ∨ (Pending J k a ∧ ¬ J a k) := by
  constructor
  · rintro ⟨ha, z, hz, hJ⟩
    by_cases hak : a = k
    · exact .inl ⟨hak, z, hak ▸ hJ⟩
    · refine .inr ⟨⟨by omega, z, by omega, hJ⟩, fun hk => ?_⟩
      have := (h.unique hJ hk).1 rfl
      omega
  · rintro (⟨rfl, z, hJ⟩ | ⟨⟨ha, z, hz, hJ⟩, hno⟩)
    · exact ⟨by omega, z, h.forward hJ, hJ⟩
    · refine ⟨by omega, z, ?_, hJ⟩
      have hne : z ≠ k := fun hzk => hno (hzk ▸ hJ)
      omega

/-- The opener of the word at `k` is the last one that is pending. -/
theorem le_of_pending (h : Brackets w J) (hJ : J a k) {a' : Nat} (ha' : Pending J k a') :
    a' ≤ a := by
  obtain ⟨hlt, z, hz, hJ'⟩ := ha'
  by_contra hno
  have := h.nests hJ hJ' (by omega) hlt
  omega

theorem head?_opened (h : Brackets w J) (hr : ∀ a, a ∈ r.opened ↔ Pending J k a) (hJ : J a k) :
    r.opened.head? = some a := by
  have ha : a ∈ r.opened := (hr a).2 ⟨h.forward hJ, k, Nat.le_refl k, hJ⟩
  cases ho : r.opened with
  | nil => rw [ho] at ha; cases ha
  | cons a₀ rest =>
    have hle : a₀ ≤ a := h.le_of_pending hJ ((hr a₀).1 (by simp [ho]))
    have hsorted := r.pairwise_opened
    rw [ho] at ha hsorted
    rcases List.mem_cons.1 ha with rfl | ha
    · rfl
    · have := (List.pairwise_cons.1 hsorted).1 a ha
      omega

theorem opens_iff (h : Brackets w J) {op : Op} (hop : w[k]? = some op) :
    op.opens = true ↔ ∃ z, J k z := by
  refine ⟨h.closed hop, fun ⟨z, hJ⟩ => ?_⟩
  obtain ⟨o, c, ho, -, hclosed⟩ := h.fits hJ
  cases hop.symm.trans ho
  exact Op.opens_of_closedBy hclosed

theorem closes_iff (h : Brackets w J) {op : Op} (hop : w[k]? = some op) :
    op.closes = true ↔ ∃ a, J a k := by
  refine ⟨h.closes hop, fun ⟨a, hJ⟩ => ?_⟩
  obtain ⟨o, c, -, hc, hclosed⟩ := h.fits hJ
  cases hop.symm.trans hc
  exact Op.closes_of_closedBy hclosed

/-- The next word fits. -/
theorem exists_read?_next (h : Brackets w J) (hr : ∀ a, a ∈ r.opened ↔ Pending J k a)
    (hops : r.ops = w.take k) {op : Op} (hop : w[k]? = some op) : ∃ t, r.read? op = some t := by
  by_cases hcloses : op.closes = true
  · obtain ⟨a, hJ⟩ := (h.closes_iff hop).1 hcloses
    obtain ⟨o, c, ho, hc, hclosed⟩ := h.fits hJ
    cases hop.symm.trans hc
    refine exists_read? (h.head?_opened hr hJ) ?_ hclosed
    rw [hops, List.getElem?_take_of_lt (h.forward hJ), ho]
  · refine Option.ne_none_iff_exists'.1 fun hnone => hcloses ?_
    rcases closer_of_read? hnone with rfl | rfl | rfl <;> rfl

/-- What is kept behind the next word. -/
theorem mem_opened_next (h : Brackets w J) (hr : ∀ a, a ∈ r.opened ↔ Pending J k a) {op : Op}
    (hop : w[k]? = some op) :
    a ∈ (if op.opens then [k] else []) ++ (if op.closes then r.opened.tail else r.opened) ↔
      Pending J (k + 1) a := by
  rw [h.pending_succ, List.mem_append, ← hr a, ← h.opens_iff hop]
  refine or_congr ?_ ?_
  · by_cases hopens : op.opens = true <;> simp [hopens]
  · by_cases hcloses : op.closes = true
    · obtain ⟨a₀, hJ⟩ := (h.closes_iff hop).1 hcloses
      rw [if_pos hcloses, mem_tail_opened (h.head?_opened hr hJ)]
      refine and_congr_right fun _ => not_congr ⟨fun ha => ha ▸ hJ, fun hJ' => ?_⟩
      exact (h.unique hJ' hJ).2 rfl
    · have hno : ¬ J a k := fun hJ => hcloses ((h.closes_iff hop).2 ⟨a, hJ⟩)
      simp [hcloses, hno]

/-- **The reader has kept the openers that are pending**, and goes on reading. -/
theorem readAll_pending (h : Brackets w J) (hk : k ≤ w.length) :
    ∃ r, readAll {} (w.take k) = .ok r ∧ ∀ a, a ∈ r.opened ↔ Pending J k a := by
  induction k with
  | zero => exact ⟨{}, rfl, fun a => ⟨nofun, fun hp => absurd hp.1 (Nat.not_lt_zero a)⟩⟩
  | succ k ih =>
    obtain ⟨r, hread, hr⟩ := ih (by omega)
    have hops : r.ops = w.take k := ops_of_readAll hread
    have hsize : r.size = k := by rw [Reader.size, hops, List.length_take]; omega
    have hop : w[k]? = some w[k] := List.getElem?_eq_getElem hk
    obtain ⟨t, ht⟩ := h.exists_read?_next hr hops hop
    refine ⟨t, ?_, fun a => ?_⟩
    · rw [List.take_add_one, hop, readAll_append hread]
      exact readAll_cons ht []
    · rw [opened_read? ht, hsize, h.mem_opened_next hr hop]

/-- **Words that are paired off are those of a block.** -/
theorem exists_block (h : Brackets w J) : ∃ b : Block, w = b.ops := by
  obtain ⟨⟨fs, last⟩, hread, hr⟩ := h.readAll_pending (Nat.le_refl w.length)
  rw [List.take_length] at hread
  cases fs with
  | nil => exact exists_block_iff.2 ⟨last, hread⟩
  | cons f fs =>
    obtain ⟨-, z, hz, hJ⟩ := (hr _).1 (List.mem_cons_self (l := Frame.addresses fs))
    obtain ⟨o, c, -, hc, -⟩ := h.fits hJ
    have := (List.getElem?_eq_some_iff.1 hc).1
    omega

/-- **There is one way to pair words off.** -/
theorem unique_pairing (h : Brackets w J) (h' : Brackets w J') (hJ : J a z) : J' a z := by
  obtain ⟨o, c, -, hc, hclosed⟩ := h.fits hJ
  obtain ⟨a', hJ'⟩ := h'.closes hc (Op.closes_of_closedBy hclosed)
  have hz : z ≤ w.length := (List.getElem?_eq_some_iff.1 hc).1.le
  obtain ⟨r, hread, hr⟩ := h.readAll_pending hz
  obtain ⟨r', hread', hr'⟩ := h'.readAll_pending hz
  cases hread.symm.trans hread'
  -- the opener of the word at `z` is the last one kept, whichever way one pairs
  cases (h.head?_opened hr hJ).symm.trans (h'.head?_opened hr' hJ')
  exact hJ'

end Brackets

end StackLang

import StackLang.Proofs.Linking.Structure

/-!
# Words and constructs

Every word of a block that is no plain one belongs to a construct of the block, and the constructs
say where their words stand: `covered_ops` and `words_inPlace`.

The words of a construct follow one another, each closed by the next.  `Construct.joints` lists
these pairs of addresses, and `Block.joints` those of all constructs of a block.  They behave as
brackets do: no word closes two others or is closed twice, and a pair that begins inside another one
ends inside it (`nests_joints`).
-/

set_option autoImplicit false

namespace StackLang

namespace Construct

/-- The words of a construct with their addresses. -/
def words : Construct → List (Nat × Op)
  | when i z => [(i, .branch), (z, .close)]
  | choice i e z => [(i, .branch), (e, .otherwise), (z, .close)]
  | loop w d z => [(w, .loop), (d, .body), (z, .close)]

/-- The pairs of words of a construct of which the second closes the first. -/
def joints : Construct → List (Nat × Nat)
  | when i z => [(i, z)]
  | choice i e z => [(i, e), (e, z)]
  | loop w d z => [(w, d), (d, z)]

variable {i e w d z x y : Nat} {op : Op}

@[simp] theorem mem_words_when :
    (x, op) ∈ (when i z).words ↔ (x = i ∧ op = .branch) ∨ (x = z ∧ op = .close) := by
  simp [words]

@[simp] theorem mem_words_choice :
    (x, op) ∈ (choice i e z).words ↔
      (x = i ∧ op = .branch) ∨ (x = e ∧ op = .otherwise) ∨ (x = z ∧ op = .close) := by
  simp [words]

@[simp] theorem mem_words_loop :
    (x, op) ∈ (loop w d z).words ↔
      (x = w ∧ op = .loop) ∨ (x = d ∧ op = .body) ∨ (x = z ∧ op = .close) := by
  simp [words]

@[simp] theorem mem_joints_when : (x, y) ∈ (when i z).joints ↔ x = i ∧ y = z := by
  simp [joints]

@[simp] theorem mem_joints_choice :
    (x, y) ∈ (choice i e z).joints ↔ (x = i ∧ y = e) ∨ (x = e ∧ y = z) := by
  simp [joints]

@[simp] theorem mem_joints_loop :
    (x, y) ∈ (loop w d z).joints ↔ (x = w ∧ y = d) ∨ (x = d ∧ y = z) := by
  simp [joints]

end Construct

namespace Block

/-! ## The words of a block -/

/-- Where the words of a block stand, the words of its constructs stand as well. -/
theorem words_inPlace {P : Nat → Op → Prop} {b : Block} {a : Nat} (h : Aligned P a b.ops) :
    ∀ c ∈ b.constructs a, ∀ w ∈ c.words, P w.1 w.2 := by
  induction b generalizing a with
  | nil => simp [constructs]
  | plain i rest ih => exact ih h.2
  | when yes rest ihy ih =>
    simp only [ops, List.cons_append, aligned_cons, aligned_append, length_ops] at h
    obtain ⟨hi, hyes, hz, hrest⟩ := h
    simp only [constructs, List.cons_append, List.mem_cons, List.mem_append]
    rintro c (rfl | hc | hc)
    · simpa [Construct.words] using ⟨hi, hz⟩
    · exact ihy hyes c hc
    · exact ih hrest c hc
  | choice yes no rest ihy ihn ih =>
    simp only [ops, List.cons_append, List.append_assoc, aligned_cons, aligned_append,
      length_ops] at h
    obtain ⟨hi, hyes, he, hno, hz, hrest⟩ := h
    simp only [constructs, List.cons_append, List.mem_cons, List.mem_append]
    rintro c (rfl | (hc | hc) | hc)
    · simpa [Construct.words] using ⟨hi, he, hz⟩
    · exact ihy hyes c hc
    · exact ihn hno c hc
    · exact ih hrest c hc
  | loop condition body rest ihc ihb ih =>
    simp only [ops, List.cons_append, List.append_assoc, aligned_cons, aligned_append,
      length_ops] at h
    obtain ⟨hw, hcond, hd, hbody, hz, hrest⟩ := h
    simp only [constructs, List.cons_append, List.mem_cons, List.mem_append]
    rintro c (rfl | (hc | hc) | hc)
    · simpa [Construct.words] using ⟨hw, hd, hz⟩
    · exact ihc hcond c hc
    · exact ihb hbody c hc
    · exact ih hrest c hc

/-- The word `op` at `x` belongs to one of the constructs, unless it is plain. -/
def Covered (cs : List Construct) (x : Nat) (op : Op) : Prop :=
  op.isBlockWord = true → ∃ c ∈ cs, (x, op) ∈ c.words

theorem Covered.mono {cs ds : List Construct} {x : Nat} {op : Op} (h : Covered cs x op)
    (hsub : ∀ c ∈ cs, c ∈ ds) : Covered ds x op := by
  intro hop
  obtain ⟨c, hc, hw⟩ := h hop
  exact ⟨c, hsub c hc, hw⟩

theorem covered_of_mem {cs : List Construct} {c : Construct} {x : Nat} {op : Op} (hc : c ∈ cs)
    (hw : (x, op) ∈ c.words) : Covered cs x op := fun _ => ⟨c, hc, hw⟩

/-- **Every word of a block belongs to a construct, unless it is plain.** -/
theorem covered_ops (a : Nat) (b : Block) : Aligned (Covered (b.constructs a)) a b.ops := by
  induction b generalizing a with
  | nil => trivial
  | plain i rest ih =>
    exact ⟨fun hop => absurd i.isPlain (by simp [hop]), ih (a + 1)⟩
  | when yes rest ihy ih =>
    have hmem : Construct.when a (a + 1 + yes.size) ∈ (when yes rest).constructs a := by
      simp [constructs]
    simp only [ops, List.cons_append, aligned_cons, aligned_append, length_ops]
    refine ⟨covered_of_mem hmem (by simp),
      (ihy (a + 1)).imp fun x op h => h.mono ?_, covered_of_mem hmem (by simp),
      (ih _).imp fun x op h => h.mono ?_⟩ <;>
      simp +contextual [constructs]
  | choice yes no rest ihy ihn ih =>
    have hmem : Construct.choice a (a + 1 + yes.size) (a + 1 + yes.size + 1 + no.size) ∈
        (choice yes no rest).constructs a := by simp [constructs]
    simp only [ops, List.cons_append, List.append_assoc, aligned_cons, aligned_append, length_ops]
    refine ⟨covered_of_mem hmem (by simp),
      (ihy (a + 1)).imp fun x op h => h.mono ?_, covered_of_mem hmem (by simp),
      (ihn _).imp fun x op h => h.mono ?_, covered_of_mem hmem (by simp),
      (ih _).imp fun x op h => h.mono ?_⟩ <;>
      simp +contextual [constructs]
  | loop condition body rest ihc ihb ih =>
    have hmem : Construct.loop a (a + 1 + condition.size) (a + 1 + condition.size + 1 + body.size) ∈
        (loop condition body rest).constructs a := by simp [constructs]
    simp only [ops, List.cons_append, List.append_assoc, aligned_cons, aligned_append, length_ops]
    refine ⟨covered_of_mem hmem (by simp),
      (ihc (a + 1)).imp fun x op h => h.mono ?_, covered_of_mem hmem (by simp),
      (ihb _).imp fun x op h => h.mono ?_, covered_of_mem hmem (by simp),
      (ih _).imp fun x op h => h.mono ?_⟩ <;>
      simp +contextual [constructs]

/-- The words of the constructs of a block, as the words of the block. -/
theorem getElem?_ops_of_mem_words {b : Block} {c : Construct} {a : Nat} {op : Op}
    (hc : c ∈ b.constructs 0) (h : (a, op) ∈ c.words) : b.ops[a]? = some op :=
  words_inPlace (P := fun a op => b.ops[a]? = some op)
    (aligned_iff.2 fun k x hk => by rwa [Nat.zero_add]) c hc (a, op) h

theorem exists_construct {b : Block} {a : Nat} {op : Op} (h : b.ops[a]? = some op)
    (hop : op.isBlockWord = true) : ∃ c ∈ b.constructs 0, (a, op) ∈ c.words := by
  have hcovered := aligned_iff.1 (covered_ops 0 b) a op h
  rw [Nat.zero_add] at hcovered
  exact hcovered hop

end Block

/-! ## Pairs of words -/

/-- Pairs that go forward, between two addresses. -/
def Within (lo hi : Nat) (l : List (Nat × Nat)) : Prop :=
  ∀ j ∈ l, lo ≤ j.1 ∧ j.1 < j.2 ∧ j.2 < hi

/-- Pairs that behave as brackets do: they share neither beginning nor end, and where one begins
inside another, it ends inside it. -/
def Nests (l : List (Nat × Nat)) : Prop :=
  ∀ j ∈ l, ∀ k ∈ l, (j.1 = k.1 ↔ j.2 = k.2) ∧ (j.1 < k.1 → k.1 < j.2 → k.2 < j.2)

variable {lo hi lo' hi' m x y : Nat} {l l' : List (Nat × Nat)}

theorem Within.mono (h : Within lo hi l) (hlo : lo' ≤ lo) (hhi : hi ≤ hi') : Within lo' hi' l := by
  intro j hj
  have := h j hj
  omega

theorem Within.append (h : Within lo hi l) (h' : Within lo hi l') : Within lo hi (l ++ l') :=
  List.forall_mem_append.2 ⟨h, h'⟩

theorem Within.cons (hx : lo ≤ x) (hxy : x < y) (hy : y < hi) (h : Within lo hi l) :
    Within lo hi ((x, y) :: l) :=
  List.forall_mem_cons.2 ⟨⟨hx, hxy, hy⟩, h⟩

theorem Nests.of_subset (h : Nests l) (hsub : ∀ j ∈ l', j ∈ l) : Nests l' :=
  fun j hj k hk => h j (hsub j hj) k (hsub k hk)

/-- A pair around others. -/
theorem Nests.cons (h : Nests l) (hin : Within (x + 1) y l) : Nests ((x, y) :: l) := by
  intro j hj k hk
  rcases List.mem_cons.1 hj with rfl | hj <;> rcases List.mem_cons.1 hk with rfl | hk
  · simp
  · have := hin k hk
    dsimp only
    omega
  · have := hin j hj
    dsimp only
    omega
  · exact h j hj k hk

/-- Pairs in front of others.  The last word of the front ones may be the first of the others. -/
theorem Nests.append (h : Nests l) (h' : Nests l') (hin : Within lo (m + 1) l)
    (hin' : Within m hi l') : Nests (l ++ l') := by
  intro j hj k hk
  rcases List.mem_append.1 hj with hj | hj <;> rcases List.mem_append.1 hk with hk | hk
  · exact h j hj k hk
  · have := hin j hj
    have := hin' k hk
    omega
  · have := hin' j hj
    have := hin k hk
    omega
  · exact h' j hj k hk

namespace Block

/-- The pairs of words of a block of which the second closes the first. -/
def joints (a : Nat) (b : Block) : List (Nat × Nat) := (b.constructs a).flatMap Construct.joints

theorem mem_joints {a : Nat} {b : Block} {j : Nat × Nat} :
    j ∈ b.joints a ↔ ∃ c ∈ b.constructs a, j ∈ c.joints := List.mem_flatMap

theorem joints_when (a : Nat) (yes rest : Block) :
    (when yes rest).joints a =
      ((a, a + 1 + yes.size) :: yes.joints (a + 1)) ++ rest.joints (a + 1 + yes.size + 1) := by
  simp [joints, constructs, Construct.joints, List.flatMap_cons]

/-- The pairs of two blocks, with the words around them, and of a third block behind. -/
def partJoints (a : Nat) (b c rest : Block) : List (Nat × Nat) :=
  let e := a + 1 + b.size
  let z := e + 1 + c.size
  (a, e) :: (e, z) :: (b.joints (a + 1) ++ c.joints (e + 1) ++ rest.joints (z + 1))

theorem joints_choice (a : Nat) (yes no rest : Block) :
    (choice yes no rest).joints a = partJoints a yes no rest := by
  simp [partJoints, joints, constructs, Construct.joints, List.flatMap_cons]

theorem joints_loop (a : Nat) (condition body rest : Block) :
    (loop condition body rest).joints a = partJoints a condition body rest := by
  simp [partJoints, joints, constructs, Construct.joints, List.flatMap_cons]

theorem within_partJoints {a n : Nat} {b c rest : Block}
    (hb : Within (a + 1) (a + 1 + b.size) (b.joints (a + 1)))
    (hc : ∀ e, Within e (e + c.size) (c.joints e))
    (hrest : ∀ e, Within e (e + rest.size) (rest.joints e))
    (hn : n = b.size + c.size + rest.size + 3) : Within a (a + n) (partJoints a b c rest) :=
  .cons (by omega) (by omega) (by omega) <| .cons (by omega) (by omega) (by omega) <|
    .append (.append (hb.mono (by omega) (by omega)) ((hc _).mono (by omega) (by omega)))
      ((hrest _).mono (by omega) (by omega))

/-- The pairs of a block go forward, inside the block. -/
theorem within_joints (a : Nat) (b : Block) : Within a (a + b.size) (b.joints a) := by
  induction b generalizing a with
  | nil => exact nofun
  | plain i rest ih => exact (ih (a + 1)).mono (by omega) (by simp; omega)
  | when yes rest ihy ih =>
    rw [joints_when]
    simp only [size_when]
    exact .append (.cons (by omega) (by omega) (by omega) ((ihy _).mono (by omega) (by omega)))
      ((ih _).mono (by omega) (by omega))
  | choice yes no rest ihy ihn ih =>
    rw [joints_choice]
    exact within_partJoints (ihy _) ihn ih (by simp)
  | loop condition body rest ihc ihb ih =>
    rw [joints_loop]
    exact within_partJoints (ihc _) ihb ih (by simp)

theorem nests_partJoints {a : Nat} {b c rest : Block} (hb : ∀ a, Nests (b.joints a))
    (hc : ∀ a, Nests (c.joints a)) (hrest : ∀ a, Nests (rest.joints a)) :
    Nests (partJoints a b c rest) := by
  have hb' := within_joints (a + 1) b
  have hc' := within_joints (a + 1 + b.size + 1) c
  have hrest' := within_joints (a + 1 + b.size + 1 + c.size + 1) rest
  -- what stands around `b` and around `c`, in their order: they share the word in the middle
  have hfront := (hb _).cons hb'
  have hback := (hc _).cons hc'
  have htail := hback.append (hrest _) (.cons (Nat.le_refl _) (by omega) (Nat.lt_succ_self _)
    (hc'.mono (by omega) (by omega))) (hrest'.mono (by omega) (Nat.le_refl _))
  have hall := hfront.append htail
    (.cons (Nat.le_refl _) (by omega) (Nat.lt_succ_self _) (hb'.mono (by omega) (by omega)))
    (.append (.cons (Nat.le_refl _) (by omega) (by omega) (hc'.mono (by omega) (by omega)))
      (hrest'.mono (by omega) (Nat.le_refl _)))
  refine hall.of_subset ?_
  simp +contextual [partJoints, or_imp]

/-- **The pairs of a block behave as brackets do.** -/
theorem nests_joints (a : Nat) (b : Block) : Nests (b.joints a) := by
  induction b generalizing a with
  | nil => exact nofun
  | plain i rest ih => exact ih (a + 1)
  | when yes rest ihy ih =>
    rw [joints_when]
    have hyes := within_joints (a + 1) yes
    exact ((ihy _).cons hyes).append (ih _)
      (.cons (Nat.le_refl _) (by omega) (Nat.lt_succ_self _) (hyes.mono (by omega) (by omega)))
      ((within_joints _ rest).mono (by omega) (Nat.le_refl _))
  | choice yes no rest ihy ihn ih =>
    rw [joints_choice]
    exact nests_partJoints ihy ihn ih
  | loop condition body rest ihc ihb ih =>
    rw [joints_loop]
    exact nests_partJoints ihc ihb ih

end Block

end StackLang

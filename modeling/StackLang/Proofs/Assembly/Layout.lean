import StackLang.Assembly.Native
import StackLang.Proofs.Placement

/-!
# Where compiled code stands

The items of a compiled program, seen from its labels.  If every instruction can be translated, the
label of each address stands in front of the code of the instruction there, the next label behind
it, and the label of the end in front of the exit sequence (`placed`, `exit_placed`).

A label is looked up from the front of all items, so each of these needs that no earlier item is the
same label.  Labels are laid down in the order of the addresses, and the induction carries just
that: what stands in front of the code from address `a` on has no label of an address from `a` on.
-/

set_option autoImplicit false

namespace StackLang.Assembly

variable {a n : Nat} {i : Instr} {l : List Instr} {pre its : List Item} {insts : List Inst}

/-- The items from place `j` on are these. -/
abbrev ItemsAt (its : List Item) : Nat → List Item → Prop :=
  Aligned fun j x => its[j]? = some x

/-- An instruction that has a translation in a program of length `n`. -/
def Translatable (n : Nat) (i : Instr) : Prop :=
  i.op.isDefined = true ∧ (i.op.isJump = true → 0 ≤ i.imm.toInt ∧ i.imm.toInt ≤ n)

instance : Decidable (Translatable n i) := inferInstanceAs (Decidable (_ ∧ _))

theorem jumpLabel_eq (h : 0 ≤ i.imm.toInt ∧ i.imm.toInt ≤ n) :
    jumpLabel a n i = .ok (.addr i.imm.toInt.toNat) := by
  rw [jumpLabel, if_pos h]

theorem code_condition (hop : i.op = .branch ∨ i.op = .body)
    (h : 0 ≤ i.imm.toInt ∧ i.imm.toInt ≤ n) :
    code a n i = .ok [.pop .rax, .test .rax .rax, .jumpZero (.addr i.imm.toInt.toNat)] := by
  rcases hop with hop | hop <;> rw [code, hop, jumpLabel_eq h] <;> rfl

theorem code_otherwise (hop : i.op = .otherwise) (h : 0 ≤ i.imm.toInt ∧ i.imm.toInt ≤ n) :
    code a n i = .ok [.jmp (.addr i.imm.toInt.toNat)] := by
  rw [code, hop, jumpLabel_eq h]
  rfl

/-- A close that only goes on has no code. -/
theorem code_close (hop : i.op = .close) (h : 0 ≤ i.imm.toInt ∧ i.imm.toInt ≤ n) :
    code a n i = .ok (if i.imm = Int64.ofNat (a + 1) then []
      else [.jmp (.addr i.imm.toInt.toNat)]) := by
  rw [code, hop, jumpLabel_eq h]
  rfl

theorem exists_code (h : Translatable n i) : ∃ insts, code a n i = .ok insts := by
  obtain ⟨hdef, hjump⟩ := h
  obtain ⟨op, imm⟩ := i
  cases op with
  | undefined k => cases hdef
  | branch => exact ⟨_, code_condition (.inl rfl) (hjump rfl)⟩
  | body => exact ⟨_, code_condition (.inr rfl) (hjump rfl)⟩
  | otherwise => exact ⟨_, code_otherwise rfl (hjump rfl)⟩
  | close => exact ⟨_, code_close rfl (hjump rfl)⟩
  | _ => exact ⟨_, rfl⟩

/-- What is reported of the instruction `i` at address `a` if it has no translation. -/
def complaint (a n : Nat) (i : Instr) : BadInstruction :=
  if i.op.isDefined then .jumpOutside a i.op i.imm n else .unknownOp a i.op

theorem jumpLabel_outside (h : ¬ (0 ≤ i.imm.toInt ∧ i.imm.toInt ≤ n)) :
    jumpLabel a n i = .error (.jumpOutside a i.op i.imm n) := by
  rw [jumpLabel, if_neg h]

theorem code_of_not_translatable (h : ¬ Translatable n i) :
    code a n i = .error (complaint a n i) := by
  by_cases hjump : i.op.isJump = true → 0 ≤ i.imm.toInt ∧ i.imm.toInt ≤ n
  · obtain ⟨op, imm⟩ := i
    cases op with
    | undefined k => rfl
    | _ => exact absurd ⟨rfl, hjump⟩ h
  · obtain ⟨hop, hout⟩ := Classical.not_imp.1 hjump
    have hlabel := jumpLabel_outside (a := a) hout
    obtain ⟨op, imm⟩ := i
    cases op with
    | branch | body | otherwise | close =>
      rw [code, hlabel]
      rfl
    | _ => cases hop

theorem translatable_of_code (h : code a n i = .ok insts) : Translatable n i := by
  refine Classical.byContradiction fun hno => ?_
  cases (code_of_not_translatable hno).symm.trans h

/-! ## Translated instructions, one after the other -/

/-- The items of the instruction at address `a`. -/
def piece (a : Nat) (i : Instr) (insts : List Inst) : List Item :=
  .label (.addr a) :: .heading (heading i.op) :: insts.map .inst

theorem length_piece : (piece a i insts).length = 2 + insts.length := by
  simp only [piece, List.length_cons, List.length_map]
  omega

theorem label_mem_piece {b : Nat} (h : .label (.addr b) ∈ piece a i insts) : b = a := by
  simpa [piece] using h

theorem compileFrom_cons (h : code a n i = .ok insts) :
    compileFrom a n (i :: l)
      = ⟨piece a i insts ++ (compileFrom (a + 1) n l).items, (compileFrom (a + 1) n l).bad⟩ := by
  rw [compileFrom, h]
  rfl

theorem compileFrom_bad (h : ∀ i ∈ l, Translatable n i) : (compileFrom a n l).bad = none := by
  induction l generalizing a with
  | nil => rfl
  | cons i l ih =>
    obtain ⟨insts, hcode⟩ := exists_code (a := a) (h i List.mem_cons_self)
    rw [compileFrom_cons hcode]
    exact ih fun i' hi' => h i' (List.mem_cons_of_mem i hi')

/-- **Compilation goes through exactly if every instruction is translatable.** -/
theorem compileFrom_bad_iff : (compileFrom a n l).bad = none ↔ ∀ i ∈ l, Translatable n i := by
  refine ⟨fun h => ?_, compileFrom_bad⟩
  induction l generalizing a with
  | nil => simp
  | cons i l ih =>
    cases hcode : code a n i with
    | error e => rw [compileFrom, hcode] at h; cases h
    | ok insts =>
      rw [compileFrom_cons hcode] at h
      exact List.forall_mem_cons.2 ⟨translatable_of_code hcode, ih h⟩

theorem labelAt?_append {l : Label} {rest : List Item} (h : .label l ∉ pre) :
    labelAt? (pre ++ .label l :: rest) l = some pre.length := by
  rw [labelAt?, List.idxOf?_eq_some_iff]
  refine ⟨by simp, by simp, fun j hj hl => h ?_⟩
  rw [List.getElem_append_left hj] at hl
  exact hl ▸ List.getElem_mem hj

theorem itemsAt_append (pre l rest : List Item) : ItemsAt (pre ++ l ++ rest) pre.length l := by
  refine aligned_iff.2 fun k x hk => ?_
  obtain ⟨hlt, -⟩ := List.getElem?_eq_some_iff.1 hk
  rw [List.append_assoc, List.getElem?_append_right (Nat.le_add_right _ _), Nat.add_sub_cancel_left,
    List.getElem?_append_left hlt, hk]

/-- The code from address `a` on starts with the label of `a`. -/
theorem labelAt?_compileFrom (hn : a + l.length = n) (htr : ∀ i ∈ l, Translatable n i)
    (hpre : ∀ b, a ≤ b → .label (.addr b) ∉ pre) :
    labelAt? (pre ++ (compileFrom a n l).items) (.addr a) = some pre.length := by
  cases l with
  | nil =>
    cases hn
    exact labelAt?_append (hpre a (Nat.le_refl a))
  | cons i l =>
    obtain ⟨insts, hcode⟩ := exists_code (a := a) (htr i List.mem_cons_self)
    rw [compileFrom_cons hcode]
    exact labelAt?_append (hpre a (Nat.le_refl a))

/-- The code of the instruction `i` at address `a` stands at place `j`, behind the label of its
address and in front of the label of the next one. -/
structure Placed (its : List Item) (n a : Nat) (i : Instr) (j : Nat) (insts : List Inst) :
    Prop where
  code_eq : code a n i = .ok insts
  label : labelAt? its (.addr a) = some j
  items : ItemsAt its j (piece a i insts)
  next : labelAt? its (.addr (a + 1)) = some (j + 2 + insts.length)

theorem not_mem_append_piece (hpre : ∀ b, a ≤ b → .label (.addr b) ∉ pre) :
    ∀ b, a + 1 ≤ b → .label (.addr b) ∉ pre ++ piece a i insts := by
  intro b hb hmem
  rcases List.mem_append.1 hmem with h | h
  · exact hpre b (by omega) h
  · have := label_mem_piece h
    omega

theorem placed_of_compileFrom (hn : a + l.length = n) (htr : ∀ i ∈ l, Translatable n i)
    (hpre : ∀ b, a ≤ b → .label (.addr b) ∉ pre) {k : Nat} (hi : l[k]? = some i) :
    ∃ j insts, Placed (pre ++ (compileFrom a n l).items) n (a + k) i j insts := by
  induction l generalizing a pre k with
  | nil => cases hi
  | cons i' l ih =>
    obtain ⟨insts, hcode⟩ := exists_code (a := a) (htr i' List.mem_cons_self)
    have htr' : ∀ i ∈ l, Translatable n i := fun i hi => htr i (List.mem_cons_of_mem i' hi)
    have hn' : a + 1 + l.length = n := by
      rw [List.length_cons] at hn
      omega
    have hpre' : ∀ b, a + 1 ≤ b → .label (.addr b) ∉ pre ++ piece a i' insts :=
      not_mem_append_piece hpre
    cases k with
    | zero =>
      cases hi
      refine ⟨pre.length, insts, hcode, labelAt?_compileFrom hn htr hpre, ?_, ?_⟩
      · rw [compileFrom_cons hcode, ← List.append_assoc]
        exact itemsAt_append _ _ _
      · have hnext := labelAt?_compileFrom hn' htr' hpre'
        rw [compileFrom_cons hcode, ← List.append_assoc]
        rwa [List.length_append, length_piece, ← Nat.add_assoc] at hnext
    | succ k =>
      have hrest := ih hn' htr' hpre' (k := k) (by simpa using hi)
      rwa [compileFrom_cons hcode, ← List.append_assoc, show a + (k + 1) = a + 1 + k by omega]

theorem exit_of_compileFrom (hn : a + l.length = n) (htr : ∀ i ∈ l, Translatable n i)
    (hpre : ∀ b, a ≤ b → .label (.addr b) ∉ pre) :
    ∃ j, labelAt? (pre ++ (compileFrom a n l).items) (.addr n) = some j ∧
      ItemsAt (pre ++ (compileFrom a n l).items) j (exitSequence n) := by
  induction l generalizing a pre with
  | nil =>
    refine ⟨pre.length, ?_, ?_⟩
    · have hend := labelAt?_compileFrom (l := []) hn htr hpre
      cases hn
      exact hend
    · have hend := itemsAt_append pre (exitSequence n) []
      rwa [List.append_nil] at hend
  | cons i l ih =>
    obtain ⟨insts, hcode⟩ := exists_code (a := a) (htr i List.mem_cons_self)
    rw [compileFrom_cons hcode, ← List.append_assoc]
    refine ih ?_ (fun i' hi' => htr i' (List.mem_cons_of_mem i hi')) (not_mem_append_piece hpre)
    rw [List.length_cons] at hn
    omega

/-! ## Whole programs -/

variable {p : Program}

/-- A program all of whose instructions have a translation. -/
def TranslatableProgram (p : Program) : Prop := ∀ i ∈ p.code.toList, Translatable p.size i

instance : DecidablePred TranslatableProgram :=
  fun p => List.decidableBAll (Translatable p.size) p.code.toList

/-- What stands in front of the code of a program up to the label of its start. -/
def lead : List Item := header ++ dumpRoutine ++ entry.dropLast

theorem items_eq (p : Program) : items p = lead ++ .label .start :: (compile p).items := by
  simp [items, lead, entry]

theorem addr_not_mem_lead (b : Nat) : .label (.addr b) ∉ lead ++ [.label .start] := by
  simp [lead, header, dumpRoutine, entry]

theorem labelAt?_start (p : Program) : labelAt? (items p) .start = some lead.length := by
  rw [items_eq]
  exact labelAt?_append (by decide)

/-- The routine that writes numbers stands in front of every program. -/
theorem hasRoutine_items (p : Program) : hasRoutine (items p) = true := by
  have hsplit : items p =
      (header ++ [.blank]) ++ (dumpRoutine.tail ++ (entry ++ (compile p).items)) := rfl
  have hfirst : .label .dump ∉ header ++ [Item.blank] := by decide
  have hlabel : labelAt? (items p) .dump = some (header ++ [Item.blank]).length :=
    labelAt?_append hfirst
  rw [hasRoutine, hlabel, Option.any_some, List.isPrefixOf_iff_prefix, hsplit, List.drop_left]
  exact List.prefix_append _ _

theorem items_eq_append (p : Program) :
    items p = (lead ++ [.label .start]) ++ (compileFrom 0 p.size p.code.toList).items := by
  simp [items_eq, compile]

theorem zero_add_size (p : Program) : 0 + p.code.toList.length = p.size := by
  rw [Nat.zero_add]
  rfl

/-- The code of a program starts right behind the label of its start. -/
theorem labelAt?_zero (h : TranslatableProgram p) :
    labelAt? (items p) (.addr 0) = some (lead.length + 1) := by
  have hzero := labelAt?_compileFrom (zero_add_size p) h fun b _ => addr_not_mem_lead b
  rwa [← items_eq_append, List.length_append] at hzero

/-- **Every instruction stands between its label and the next one.** -/
theorem placed (h : TranslatableProgram p) (hi : p.code[a]? = some i) :
    ∃ j insts, Placed (items p) p.size a i j insts := by
  have hplaced := placed_of_compileFrom (zero_add_size p) h (fun b _ => addr_not_mem_lead b)
    (k := a) (by simpa using hi)
  rwa [← items_eq_append, Nat.zero_add] at hplaced

/-- **The exit sequence stands at the label of the end.** -/
theorem exit_placed (h : TranslatableProgram p) :
    ∃ j, labelAt? (items p) (.addr p.size) = some j ∧
      ItemsAt (items p) j (exitSequence p.size) := by
  have hexit := exit_of_compileFrom (zero_add_size p) h fun b _ => addr_not_mem_lead b
  rwa [← items_eq_append] at hexit

/-- Every address up to the end has a label. -/
theorem exists_labelAt? (h : TranslatableProgram p) (ha : a ≤ p.size) :
    ∃ j, labelAt? (items p) (.addr a) = some j := by
  rcases Nat.eq_or_lt_of_le ha with rfl | hlt
  · obtain ⟨j, hj, -⟩ := exit_placed h
    exact ⟨j, hj⟩
  · obtain ⟨j, insts, hj⟩ := placed h (Array.getElem?_eq_getElem hlt)
    exact ⟨j, hj.label⟩

end StackLang.Assembly

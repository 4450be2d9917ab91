import StackLang.Listing
import StackLang.Proofs.Lint.Linked
import StackLang.Proofs.Linking.Brackets

/-!
# The notes of a listing

The table of a program has notes on its jumps, which come from comparing the target of a jump with
its own address and with the length of the program.  In a linked program they say which word of a
block stands there.  `EndsChoice`, `EndsLoop` and `LeavesAtEnd` describe the words that have a note,
by the word that they close or that closes them and without regard to where any of them goes.  The
note on each jump of a construct is the one for its place (`noted_of_stands`), and no word has two
of these places (`Noted.eq_iff`).
-/

set_option autoImplicit false

namespace StackLang

open Lint Listing

variable {w : List Op} {a : Nat}

/-- The `END` of an `IF` or of an `ELSE`. -/
def EndsChoice (w : List Op) (a : Nat) : Prop :=
  w[a]? = some .close ∧
    ∃ o, ClosedAt w o a ∧ (w[o]? = some .branch ∨ w[o]? = some .otherwise)

/-- The `END` of a loop. -/
def EndsLoop (w : List Op) (a : Nat) : Prop :=
  w[a]? = some .close ∧ ∃ d, ClosedAt w d a ∧ w[d]? = some .body

/-- The `DO` of a loop whose `END` is the last word. -/
def LeavesAtEnd (w : List Op) (a : Nat) : Prop :=
  w[a]? = some .body ∧ ∃ z, ClosedAt w a z ∧ z + 1 = w.length

/-- The note for the place that a word has in its block. -/
inductive Noted (w : List Op) (a : Nat) : String → Prop
  | endsChoice : EndsChoice w a → Noted w a "fallthrough"
  | endsLoop : EndsLoop w a → Noted w a "loop back"
  | leavesAtEnd : LeavesAtEnd w a → Noted w a "exit"
  | none : ¬ EndsChoice w a → ¬ EndsLoop w a → ¬ LeavesAtEnd w a → Noted w a ""

/-- An `END` closes one word only. -/
theorem EndsChoice.not_endsLoop {b : Block} (h : EndsChoice b.ops a) : ¬ EndsLoop b.ops a := by
  obtain ⟨-, o, ho, hopener⟩ := h
  rintro ⟨-, d, hd, hbody⟩
  have hsame : o = d :=
    (b.brackets_joints.unique (b.mem_joints_iff.2 ho) (b.mem_joints_iff.2 hd)).2 rfl
  subst hsame
  rcases hopener with hbranch | hotherwise
  · cases hbranch.symm.trans hbody
  · cases hotherwise.symm.trans hbody

namespace Noted

/-- A word that is neither an `END` nor a `DO` has no note. -/
theorem of_other {op : Op} (h : w[a]? = some op) (hclose : op ≠ .close) (hbody : op ≠ .body) :
    Noted w a "" := by
  refine .none ?_ ?_ ?_ <;> rintro ⟨hop, -⟩ <;> cases h.symm.trans hop
  · exact hclose rfl
  · exact hclose rfl
  · exact hbody rfl

/-- A word has one place in a block, and so its note says which. -/
theorem eq_iff {b : Block} {n : String} (h : Noted b.ops a n) :
    (n = "fallthrough" ↔ EndsChoice b.ops a) ∧ (n = "loop back" ↔ EndsLoop b.ops a) ∧
      (n = "exit" ↔ LeavesAtEnd b.ops a) ∧
      (n = "" ↔ ¬ EndsChoice b.ops a ∧ ¬ EndsLoop b.ops a ∧ ¬ LeavesAtEnd b.ops a) := by
  have hends : EndsChoice b.ops a → ¬ EndsLoop b.ops a := fun h h' => h.not_endsLoop h'
  have hchoice : EndsChoice b.ops a → ¬ LeavesAtEnd b.ops a := by
    rintro ⟨hclose, -⟩ ⟨hbody, -⟩
    cases hclose.symm.trans hbody
  have hloop : EndsLoop b.ops a → ¬ LeavesAtEnd b.ops a := by
    rintro ⟨hclose, -⟩ ⟨hbody, -⟩
    cases hclose.symm.trans hbody
  cases h with
  | endsChoice h => simp [h, hends h, hchoice h]
  | endsLoop h => simp [h, hloop h, mt hends (not_not_intro h)]
  | leavesAtEnd h => simp [h, mt hchoice (not_not_intro h), mt hloop (not_not_intro h)]
  | none h₁ h₂ h₃ => simp [h₁, h₂, h₃]

end Noted

namespace Listing

variable {q : Program} {b : Block} {c : Construct} {i : Instr} {op : Op} {t : Nat}

theorem note_of_not_jump (q : Program) (a : Nat) (h : i.op.isJump = false) : note q a i = "" := by
  simp [note, h]

/-- The note on a jump, by the address that it goes to. -/
theorem note_of_goesTo (hq : q.linked = true) (hi : q.code[a]? = some i)
    (h : GoesTo q.code a op t) (hjump : op.isJump = true) :
    note q a i =
      if op = .close ∧ t = a + 1 then "fallthrough"
      else if t < a then "loop back"
      else if t = q.size then "exit"
      else "" := by
  obtain ⟨j, hj, rfl, ht⟩ := h
  cases hi.symm.trans hj
  simp only [note, hq, hjump, ht]
  norm_cast

/-- An `IF` or an `ELSE` goes forward to a word of the program, and has no note. -/
theorem noted_of_forward (hq : q.linked = true) (hi : q.code[a]? = some i)
    (h : GoesTo q.code a op t) (hop : op = .branch ∨ op = .otherwise) (hforward : a < t)
    (ht : t < q.size) : Noted q.ops a (note q a i) := by
  have hword : q.ops[a]? = some op := Program.opAt_iff.1 h.opAt
  rcases hop with rfl | rfl <;>
    rw [note_of_goesTo hq hi h rfl, if_neg (by simp), if_neg (by omega), if_neg (by omega)] <;>
    exact .of_other hword (by simp) (by simp)

theorem noted_of_endsChoice {o : Nat} (hq : q.linked = true) (hi : q.code[a]? = some i)
    (h : GoesTo q.code a .close (a + 1)) (hclosed : ClosedAt q.ops o a)
    (ho : q.ops[o]? = some .branch ∨ q.ops[o]? = some .otherwise) :
    Noted q.ops a (note q a i) := by
  rw [note_of_goesTo hq hi h rfl, if_pos ⟨rfl, rfl⟩]
  exact .endsChoice ⟨Program.opAt_iff.1 h.opAt, o, hclosed, ho⟩

theorem noted_of_endsLoop {d : Nat} (hq : q.linked = true) (hi : q.code[a]? = some i)
    (h : GoesTo q.code a .close t) (hback : t < a) (hclosed : ClosedAt q.ops d a)
    (hd : q.ops[d]? = some .body) : Noted q.ops a (note q a i) := by
  rw [note_of_goesTo hq hi h rfl, if_neg (by omega), if_pos hback]
  exact .endsLoop ⟨Program.opAt_iff.1 h.opAt, d, hclosed, hd⟩

/-- A `DO` goes past the `END` of its loop, which is the end of the program or not. -/
theorem noted_of_body {z : Nat} (hq : q.linked = true) (hi : q.code[a]? = some i)
    (h : GoesTo q.code a .body (z + 1)) (hclosed : ClosedAt q.ops a z) :
    Noted q.ops a (note q a i) := by
  have hword : q.ops[a]? = some .body := Program.opAt_iff.1 h.opAt
  have hforward := hclosed.1
  rw [note_of_goesTo hq hi h rfl, if_neg (by simp), if_neg (by omega)]
  by_cases hend : z + 1 = q.size
  · rw [if_pos hend]
    exact .leavesAtEnd ⟨hword, z, hclosed, by rw [hend, q.length_ops]⟩
  · rw [if_neg hend]
    refine .none ?_ ?_ ?_
    · exact fun hends => by cases hword.symm.trans hends.1
    · exact fun hends => by cases hword.symm.trans hends.1
    · rintro ⟨-, z', hclosed', hlast⟩
      rw [q.length_ops, ← hclosed.unique hclosed'] at hlast
      exact hend hlast

/-- **Each jump of a construct that stands has the note for its place.** -/
theorem noted_of_stands (hq : q.linked = true) (hops : q.ops = b.ops) (hc : c ∈ b.constructs 0)
    (hstands : c.Stands q.code) (hi : q.code[a]? = some i) (ha : (a, i.op) ∈ c.words)
    (hjump : i.op.isJump = true) : Noted q.ops a (note q a i) := by
  have hclosed {x y : Nat} (h : (x, y) ∈ c.joints) : ClosedAt q.ops x y := by
    rw [hops]
    exact b.mem_joints_iff.1 (Block.mem_joints.2 ⟨c, hc, h⟩)
  cases c with
  | when f z =>
    obtain ⟨hfz, hf, hz⟩ := hstands
    rcases Construct.mem_words_when.1 ha with ⟨rfl, -⟩ | ⟨rfl, -⟩
    · exact noted_of_forward hq hi hf (.inl rfl) hfz hz.opAt.lt_size
    · exact noted_of_endsChoice hq hi hz (hclosed (by simp)) (.inl (Program.opAt_iff.1 hf.opAt))
  | choice f e z =>
    obtain ⟨hfe, hez, hf, he, hz⟩ := hstands
    have hlt : z < q.size := hz.opAt.lt_size
    rcases Construct.mem_words_choice.1 ha with ⟨rfl, -⟩ | ⟨rfl, -⟩ | ⟨rfl, -⟩
    · exact noted_of_forward hq hi hf (.inl rfl) (by omega) (by omega)
    · exact noted_of_forward hq hi he (.inr rfl) hez hlt
    · exact noted_of_endsChoice hq hi hz (o := e) (hclosed (by simp))
        (.inr (Program.opAt_iff.1 he.opAt))
  | loop w d z =>
    obtain ⟨hwd, hdz, -, hd, hz⟩ := hstands
    rcases Construct.mem_words_loop.1 ha with ⟨-, hop⟩ | ⟨rfl, -⟩ | ⟨rfl, -⟩
    · rw [hop] at hjump
      cases hjump
    · exact noted_of_body hq hi hd (hclosed (by simp))
    · exact noted_of_endsLoop hq hi hz (d := d) (by omega) (hclosed (by simp))
        (Program.opAt_iff.1 hd.opAt)

/-- Every word of a linked program has the note for its place. -/
theorem noted_of_standsAs (hq : q.linked = true) (h : q.StandsAs b) (hi : q.code[a]? = some i) :
    Noted q.ops a (note q a i) := by
  have hword : OpAt q.code a i.op := opAt_of_getElem? hi
  cases hjump : i.op.isJump with
  | false =>
    rw [note_of_not_jump q a hjump]
    refine .of_other (Program.opAt_iff.1 hword) ?_ ?_ <;> intro hop <;> rw [hop] at hjump <;>
      cases hjump
  | true =>
    obtain ⟨c, hc, ha, hstands⟩ := h.exists_construct hword (Op.isBlockWord_of_isJump hjump)
    exact noted_of_stands hq h.1 hc hstands hi ha hjump

theorem note_of_row (hi : q.code[a]? = some i) :
    ((table q).rows[a]?.bind fun row => row[3]?) = some (.str (note q a i)) := by
  simp [table, row, hi]

/-- **The notes of a listing follow the blocks of the program.**  In the table of a linked program,
the note in row `a` says whether the word there is the `END` of a choice, the `END` of a loop, or
the `DO` of a loop that ends with the program.  Any other word has an empty note. -/
theorem notes_follow_blocks {p : Program} (hsize : p.size < 0x8000000000000000)
    (hlink : p.link = (q, none)) (hi : q.code[a]? = some i) :
    ((table q).rows[a]?.bind fun row => row[3]?) = some (.str (note q a i)) ∧
      (note q a i = "fallthrough" ↔ EndsChoice q.ops a) ∧
      (note q a i = "loop back" ↔ EndsLoop q.ops a) ∧
      (note q a i = "exit" ↔ LeavesAtEnd q.ops a) ∧
      (note q a i = "" ↔ ¬ EndsChoice q.ops a ∧ ¬ EndsLoop q.ops a ∧ ¬ LeavesAtEnd q.ops a) := by
  obtain ⟨b, hb⟩ := Program.standsAs_of_link (by rwa [Program.size_of_link hlink]) hlink
  have hnoted := noted_of_standsAs (Program.linked_of_link hlink) hb hi
  refine ⟨note_of_row hi, ?_⟩
  rw [hb.1] at hnoted ⊢
  exact hnoted.eq_iff

/-- A choice, and a loop that ends with the program and has another one inside. -/
theorem notes_follow_blocks_nested :
    let p : Program :=
      { code := #[⟨.pushTrue, 0⟩, ⟨.branch, 0⟩, ⟨.close, 0⟩, ⟨.loop, 0⟩, ⟨.pushTrue, 0⟩, ⟨.body, 0⟩,
          ⟨.loop, 0⟩, ⟨.pushFalse, 0⟩, ⟨.body, 0⟩, ⟨.close, 0⟩, ⟨.close, 0⟩] }
    let q : Program :=
      { code := #[⟨.pushTrue, 0⟩, ⟨.branch, 2⟩, ⟨.close, 3⟩, ⟨.loop, 0⟩, ⟨.pushTrue, 0⟩,
          ⟨.body, 11⟩, ⟨.loop, 0⟩, ⟨.pushFalse, 0⟩, ⟨.body, 10⟩, ⟨.close, 6⟩, ⟨.close, 3⟩]
        linked := true }
    (p.size < 0x8000000000000000 ∧ p.link = (q, none)) ∧
      EndsChoice q.ops 2 ∧ EndsLoop q.ops 9 ∧ EndsLoop q.ops 10 ∧ LeavesAtEnd q.ops 5 ∧
      ¬ LeavesAtEnd q.ops 8 := by
  intro p q
  have hsize : p.size < 0x8000000000000000 := by decide
  have hlink : p.link = (q, none) := by decide
  have hnotes {a : Nat} {i : Instr} (hi : q.code[a]? = some i) :=
    notes_follow_blocks hsize hlink hi
  refine ⟨⟨hsize, hlink⟩, ?_, ?_, ?_, ?_, ?_⟩
  · exact (hnotes (a := 2) rfl).2.1.1 (by decide)
  · exact (hnotes (a := 9) rfl).2.2.1.1 (by decide)
  · exact (hnotes (a := 10) rfl).2.2.1.1 (by decide)
  · exact (hnotes (a := 5) rfl).2.2.2.1.1 (by decide)
  · exact ((hnotes (a := 8) rfl).2.2.2.2.1 (by decide)).2.2

end Listing

end StackLang

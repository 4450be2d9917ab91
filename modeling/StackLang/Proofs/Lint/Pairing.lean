import StackLang.Proofs.Linking.Brackets
import StackLang.Proofs.Lint.Linked

/-!
# What the static checks leave open

The checks look at one jump at a time, so they accept programs that no linking gives: an `END` that
closes nothing, or two `IF`s that go to each other's `END`.

What is missing is that the jumps pair the words off.  A jump shows which word closes which:
`Joins code a z` holds if the word at `z` closes the word at `a` as the immediates have it.  The
checks make sure that such words fit each other and stand in the right order (`Joins.fits`).
`PairedUp` is the rest: every word has one partner, no pairs cross, and an `END` that closes no loop
goes on.  A program without issues that is paired up stands as a block (`standsAs_of_pairedUp`), and
every program that does is paired up (`StandsAs.pairedUp`) and is what linking its words gives
(`StandsAs.link`).
-/

set_option autoImplicit false

namespace StackLang

namespace Lint

/-- The word at `z` closes the word at `a`, as the jumps have it. -/
inductive Joins (code : Array Instr) : Nat → Nat → Prop
  /-- An `IF` that goes past an `ELSE` is closed by that. -/
  | pastOtherwise {a e : Nat} : GoesTo code a .branch (e + 1) → OpAt code e .otherwise →
      Joins code a e
  /-- Any other `IF` is closed by the `END` it goes onto, -/
  | ontoClose {a z : Nat} : GoesTo code a .branch z → OpAt code z .close →
      (∀ e, z = e + 1 → ¬ OpAt code e .otherwise) → Joins code a z
  /-- and so is an `ELSE`. -/
  | otherwise {a z : Nat} : GoesTo code a .otherwise z → Joins code a z
  /-- A `DO` is closed by the `END` it goes past. -/
  | body {a z : Nat} : GoesTo code a .body (z + 1) → Joins code a z
  /-- A `WHILE` is closed by the `DO` whose `END` goes back to it. -/
  | loop {w d z : Nat} : OpAt code w .loop → GoesTo code d .body (z + 1) →
      GoesTo code z .close w → Joins code w d

/-- The jumps pair the words off. -/
structure PairedUp (code : Array Instr) : Prop where
  /-- Every opener is closed, -/
  closed : ∀ {a o}, OpAt code a o → o.opens = true → ∃ z, Joins code a z
  /-- and every closer closes something. -/
  closes : ∀ {z c}, OpAt code z c → c.closes = true → ∃ a, Joins code a z
  /-- No word closes two others or is closed twice, -/
  unique : ∀ {a z a' z'}, Joins code a z → Joins code a' z' → (a = a' ↔ z = z')
  /-- and a pair that begins inside another ends inside it. -/
  nests : ∀ {a z a' z'}, Joins code a z → Joins code a' z' → a < a' → a' < z → z' < z
  /-- An `END` that closes no loop goes on. -/
  onward : ∀ {a z o}, Joins code a z → OpAt code a o → o ≠ .body → OpAt code z .close →
    GoesTo code z .close (z + 1)

variable {code : Array Instr} {a e t w d z : Nat} {op : Op}

/-- Every jump of the code lands. -/
def Landing (code : Array Instr) : Prop :=
  ∀ a op, OpAt code a op → op.isJump = true →
    ∃ t ≤ code.size, GoesTo code a op t ∧ Lands code a op t

theorem Landing.lands (h : Landing code) (ha : GoesTo code a op t) (hjump : op.isJump = true) :
    Lands code a op t := by
  obtain ⟨u, -, hu, hlands⟩ := h a op ha.opAt hjump
  rwa [ha.unique hu]

theorem landing_of_lint {p : Program} (h : p.lint = []) : Landing p.code := by
  intro a op ha hjump
  obtain ⟨i, hi, rfl⟩ := ha.exists_instr
  obtain ⟨t, ht, hle, hlands⟩ := ((Program.lint_eq_nil_iff.1 h).2 a i hi).2 hjump
  exact ⟨t, hle, ⟨i, hi, rfl, ht⟩, hlands⟩

/-- Where all jumps land, words that are joined fit each other, and stand in this order. -/
theorem Joins.fits (hland : Landing code) (h : Joins code a z) :
    a < z ∧ ∃ o c, OpAt code a o ∧ OpAt code z c ∧ o.closedBy c = true := by
  cases h with
  | pastOtherwise ha hz =>
    have hlt := (hland.lands ha rfl).1
    have hne : a ≠ z := by
      rintro rfl
      cases ha.opAt.unique hz
    exact ⟨by omega, .branch, .otherwise, ha.opAt, hz, rfl⟩
  | ontoClose ha hz hno => exact ⟨(hland.lands ha rfl).1, .branch, .close, ha.opAt, hz, rfl⟩
  | otherwise ha =>
    obtain ⟨hlt, hz⟩ := hland.lands ha rfl
    exact ⟨hlt, .otherwise, .close, ha.opAt, hz, rfl⟩
  | body ha =>
    obtain ⟨z', w, hz', hlt, hz, -⟩ := hland.lands ha rfl
    cases hz'
    exact ⟨hlt, .body, .close, ha.opAt, hz.opAt, rfl⟩
  | loop hw hd hz =>
    obtain ⟨z', w, hz', -, hback, hlt, -⟩ := hland.lands hd rfl
    cases hz'
    cases hback.unique hz
    exact ⟨hlt, .loop, .body, hw, hd.opAt, rfl⟩

/-- What a word `op` at `a` that the word at `z` closes has to be. -/
def JoinedAs (code : Array Instr) (a z : Nat) : Op → Prop
  | .branch =>
    (GoesTo code a .branch (z + 1) ∧ OpAt code z .otherwise) ∨
      (GoesTo code a .branch z ∧ OpAt code z .close)
  | .otherwise => GoesTo code a .otherwise z
  | .body => GoesTo code a .body (z + 1)
  | .loop => ∃ y, GoesTo code z .body (y + 1) ∧ GoesTo code y .close a
  | _ => False

theorem Joins.joinedAs (h : Joins code a z) (ha : OpAt code a op) : JoinedAs code a z op := by
  cases h with
  | pastOtherwise hgo hz =>
    cases ha.unique hgo.opAt
    exact .inl ⟨hgo, hz⟩
  | ontoClose hgo hz _ =>
    cases ha.unique hgo.opAt
    exact .inr ⟨hgo, hz⟩
  | otherwise hgo =>
    cases ha.unique hgo.opAt
    exact hgo
  | body hgo =>
    cases ha.unique hgo.opAt
    exact hgo
  | loop hw hd hz =>
    cases ha.unique hw
    exact ⟨_, hd, hz⟩

end Lint

open Lint

namespace Program

variable {p : Program} {b : Block} {a z : Nat} {op : Op}

/-! ## Programs that are paired up stand as a block -/

theorem brackets_of_pairedUp (hland : Landing p.code) (h : PairedUp p.code) :
    Brackets p.ops (Joins p.code) where
  fits hJ := by
    obtain ⟨-, o, c, ho, hc, hclosed⟩ := hJ.fits hland
    exact ⟨o, c, opAt_iff.1 ho, opAt_iff.1 hc, hclosed⟩
  forward hJ := (hJ.fits hland).1
  closed ho := h.closed (opAt_iff.2 ho)
  closes hc := h.closes (opAt_iff.2 hc)
  unique := h.unique
  nests := h.nests

/-- A construct whose words are joined as the block has them stands. -/
theorem stands_of_joins (hland : Landing p.code) (h : PairedUp p.code) {c : Construct}
    (hwords : ∀ a op, (a, op) ∈ c.words → OpAt p.code a op)
    (hjoints : ∀ a z, (a, z) ∈ c.joints → Joins p.code a z) : c.Stands p.code := by
  cases c with
  | when i z =>
    have hi := hwords i .branch (by simp)
    have hz := hwords z .close (by simp)
    have hiz := hjoints i z (by simp)
    refine ⟨(hiz.fits hland).1, ?_, h.onward hiz hi nofun hz⟩
    rcases hiz.joinedAs hi with ⟨-, hz'⟩ | ⟨hgo, -⟩
    · cases hz.unique hz'
    · exact hgo
  | choice i e z =>
    have hi := hwords i .branch (by simp)
    have he := hwords e .otherwise (by simp)
    have hz := hwords z .close (by simp)
    have hie := hjoints i e (by simp)
    have hez := hjoints e z (by simp)
    refine ⟨(hie.fits hland).1, (hez.fits hland).1, ?_, hez.joinedAs he,
      h.onward hez he nofun hz⟩
    rcases hie.joinedAs hi with ⟨hgo, -⟩ | ⟨-, he'⟩
    · exact hgo
    · cases he.unique he'
  | loop w d z =>
    have hw := hwords w .loop (by simp)
    have hd := hwords d .body (by simp)
    have hwd := hjoints w d (by simp)
    have hdz := hjoints d z (by simp)
    obtain ⟨z', hd', hz'⟩ := hwd.joinedAs hw
    have hgo : GoesTo p.code d .body (z + 1) := hdz.joinedAs hd
    cases hgo.unique hd'
    exact ⟨(hwd.fits hland).1, (hdz.fits hland).1, hw, hgo, hz'⟩

/-- The words of a program that is paired up are those of a block, whose constructs stand. -/
theorem standsAs_of_pairedUp (hland : Landing p.code) (h : PairedUp p.code) :
    ∃ b, p.StandsAs b := by
  have hbrackets := brackets_of_pairedUp hland h
  obtain ⟨b, hops⟩ := hbrackets.exists_block
  refine ⟨b, hops, fun c hc => stands_of_joins hland h (fun a op hw => ?_) (fun a z hj => ?_)⟩
  · exact opAt_iff.2 (by rw [hops, Block.getElem?_ops_of_mem_words hc hw])
  · rw [hops] at hbrackets
    exact (Block.brackets_joints b).unique_pairing hbrackets (Block.mem_joints.2 ⟨c, hc, hj⟩)

/-! ## Programs that stand as a block are paired up -/

namespace StandsAs

/-- The word before the `END` of an `IF` without `ELSE` is no `ELSE`. -/
theorem not_otherwise (h : p.StandsAs b) {i e : Nat} (hc : .when i (e + 1) ∈ b.constructs 0) :
    ¬ OpAt p.code e .otherwise := by
  intro he
  have hbrackets := Block.brackets_joints b
  have hi : OpAt p.code i .branch := (h.2 _ hc).2.1.opAt
  have hwhen : (i, e + 1) ∈ b.joints 0 := Block.mem_joints.2 ⟨_, hc, by simp⟩
  have hlt := hbrackets.forward hwhen
  have hne : i ≠ e := by
    rintro rfl
    cases hi.unique he
  -- the `ELSE` would begin a pair inside, which has no place to end
  obtain ⟨z, hz⟩ := hbrackets.closed (by rw [← h.1]; exact opAt_iff.1 he) rfl
  have := hbrackets.nests hwhen hz (by omega) (by omega)
  have := hbrackets.forward hz
  omega

theorem joins_of_joint (h : p.StandsAs b) (hj : (a, z) ∈ b.joints 0) : Joins p.code a z := by
  obtain ⟨c, hc, hj⟩ := Block.mem_joints.1 hj
  have hstands := h.2 c hc
  cases c with
  | when i z' =>
    obtain ⟨rfl, rfl⟩ := Construct.mem_joints_when.1 hj
    obtain ⟨-, hi, hz⟩ := hstands
    refine .ontoClose hi hz.opAt ?_
    rintro e rfl
    exact h.not_otherwise hc
  | choice i e z' =>
    obtain ⟨-, -, hi, he, -⟩ := hstands
    rcases Construct.mem_joints_choice.1 hj with ⟨rfl, rfl⟩ | ⟨rfl, rfl⟩
    · exact .pastOtherwise hi he.opAt
    · exact .otherwise he
  | loop w d z' =>
    obtain ⟨-, -, hw, hd, hz⟩ := hstands
    rcases Construct.mem_joints_loop.1 hj with ⟨rfl, rfl⟩ | ⟨rfl, rfl⟩
    · exact .loop hw hd hz
    · exact .body hd

theorem exists_of_branch (h : p.StandsAs b) (ha : OpAt p.code a .branch) :
    (∃ z, .when a z ∈ b.constructs 0) ∨ ∃ e z, .choice a e z ∈ b.constructs 0 := by
  obtain ⟨c, hc, hw, -⟩ := h.exists_construct ha rfl
  cases c with
  | when i z =>
    obtain rfl : a = i := by simpa using hw
    exact .inl ⟨z, hc⟩
  | choice i e z =>
    obtain rfl : a = i := by simpa using hw
    exact .inr ⟨e, z, hc⟩
  | loop w d z => simp at hw

theorem exists_of_otherwise (h : p.StandsAs b) (ha : OpAt p.code a .otherwise) :
    ∃ i z, .choice i a z ∈ b.constructs 0 := by
  obtain ⟨c, hc, hw, -⟩ := h.exists_construct ha rfl
  cases c with
  | choice i e z =>
    obtain rfl : a = e := by simpa using hw
    exact ⟨i, z, hc⟩
  | _ => simp at hw

theorem exists_of_body (h : p.StandsAs b) (ha : OpAt p.code a .body) :
    ∃ w z, .loop w a z ∈ b.constructs 0 := by
  obtain ⟨c, hc, hw, -⟩ := h.exists_construct ha rfl
  cases c with
  | loop w d z =>
    obtain rfl : a = d := by simpa using hw
    exact ⟨w, z, hc⟩
  | _ => simp at hw

theorem joint_of_joins (h : p.StandsAs b) (hJ : Joins p.code a z) : (a, z) ∈ b.joints 0 := by
  cases hJ with
  | pastOtherwise ha he =>
    rcases h.exists_of_branch ha.opAt with ⟨z', hc⟩ | ⟨e, z', hc⟩
    · cases (h.2 _ hc).2.1.unique ha
      exact absurd he (h.not_otherwise hc)
    · cases (h.2 _ hc).2.2.1.unique ha
      exact Block.mem_joints.2 ⟨_, hc, by simp⟩
  | ontoClose ha hz hno =>
    rcases h.exists_of_branch ha.opAt with ⟨z', hc⟩ | ⟨e, z', hc⟩
    · cases (h.2 _ hc).2.1.unique ha
      exact Block.mem_joints.2 ⟨_, hc, by simp⟩
    · obtain ⟨-, -, hi, he, -⟩ := h.2 _ hc
      exact absurd he.opAt (hno e (ha.unique hi))
  | otherwise ha =>
    obtain ⟨i, z', hc⟩ := h.exists_of_otherwise ha.opAt
    cases (h.2 _ hc).2.2.2.1.unique ha
    exact Block.mem_joints.2 ⟨_, hc, by simp⟩
  | body ha =>
    obtain ⟨w, z', hc⟩ := h.exists_of_body ha.opAt
    cases (h.2 _ hc).2.2.2.1.unique ha
    exact Block.mem_joints.2 ⟨_, hc, by simp⟩
  | loop hw hd hz =>
    obtain ⟨w', z', hc⟩ := h.exists_of_body hd.opAt
    obtain ⟨-, -, -, hd', hz'⟩ := h.2 _ hc
    cases hd.unique hd'
    cases hz.unique hz'
    exact Block.mem_joints.2 ⟨_, hc, by simp⟩

theorem pairedUp (h : p.StandsAs b) : PairedUp p.code where
  closed ho hopens := by
    obtain ⟨z, hj⟩ := (Block.brackets_joints b).closed (by rw [← h.1]; exact opAt_iff.1 ho) hopens
    exact ⟨z, h.joins_of_joint hj⟩
  closes hc hcloses := by
    obtain ⟨a, hj⟩ := (Block.brackets_joints b).closes (by rw [← h.1]; exact opAt_iff.1 hc) hcloses
    exact ⟨a, h.joins_of_joint hj⟩
  unique hJ hJ' := (Block.brackets_joints b).unique (h.joint_of_joins hJ) (h.joint_of_joins hJ')
  nests hJ hJ' := (Block.brackets_joints b).nests (h.joint_of_joins hJ) (h.joint_of_joins hJ')
  onward hJ ho hne hz := by
    obtain ⟨c, hc, hj⟩ := Block.mem_joints.1 (h.joint_of_joins hJ)
    have hstands := h.2 c hc
    cases c with
    | when i z' =>
      obtain ⟨rfl, rfl⟩ := Construct.mem_joints_when.1 hj
      exact hstands.2.2
    | choice i e z' =>
      obtain ⟨-, -, hi, he, hgo⟩ := hstands
      rcases Construct.mem_joints_choice.1 hj with ⟨rfl, rfl⟩ | ⟨rfl, rfl⟩
      · cases hz.unique he.opAt
      · exact hgo
    | loop w d z' =>
      obtain ⟨-, -, hw, hd, -⟩ := hstands
      rcases Construct.mem_joints_loop.1 hj with ⟨rfl, rfl⟩ | ⟨rfl, rfl⟩
      · cases hz.unique hd.opAt
      · exact absurd (ho.unique hd.opAt) hne

end StandsAs

end Program

/-! ## Programs that stand as a block are linked -/

namespace Construct

variable {code code' : Array Instr} {c : Construct} {x t : Nat} {op : Op}

theorem jump_of_goesTo (h : GoesTo code x op t) : code[x]? = some (Block.jump op t) := by
  obtain ⟨⟨op, imm⟩, hi, rfl, ht⟩ := h
  have himm : imm = Int64.ofNat t := by rw [← Int64.ofInt_toInt imm, ht, Int64.ofInt_eq_ofNat]
  rw [hi, himm]
  rfl

theorem Stands.linkedIn (h : c.Stands code) : c.LinkedIn code := by
  cases c with
  | when i z => exact ⟨jump_of_goesTo h.2.1, jump_of_goesTo h.2.2⟩
  | choice i e z =>
    obtain ⟨-, -, hi, he, hz⟩ := h
    exact ⟨jump_of_goesTo hi, jump_of_goesTo he, jump_of_goesTo hz⟩
  | loop w d z =>
    obtain ⟨-, -, -, hd, hz⟩ := h
    exact ⟨jump_of_goesTo hd, jump_of_goesTo hz⟩

/-- The jumps of a construct are the same wherever it is linked. -/
theorem LinkedIn.getElem?_eq (h : c.LinkedIn code) (h' : c.LinkedIn code')
    (hx : (x, op) ∈ c.words) (hjump : op.isJump = true) : code[x]? = code'[x]? := by
  cases c with
  | when i z =>
    rcases mem_words_when.1 hx with ⟨rfl, rfl⟩ | ⟨rfl, rfl⟩
    · exact h.1.trans h'.1.symm
    · exact h.2.trans h'.2.symm
  | choice i e z =>
    rcases mem_words_choice.1 hx with ⟨rfl, rfl⟩ | ⟨rfl, rfl⟩ | ⟨rfl, rfl⟩
    · exact h.1.trans h'.1.symm
    · exact h.2.1.trans h'.2.1.symm
    · exact h.2.2.trans h'.2.2.symm
  | loop w d z =>
    rcases mem_words_loop.1 hx with ⟨rfl, rfl⟩ | ⟨rfl, rfl⟩ | ⟨rfl, rfl⟩
    · cases hjump
    · exact h.1.trans h'.1.symm
    · exact h.2.trans h'.2.symm

end Construct

namespace Program

variable {p : Program} {b : Block}

/-- Linking writes the jumps that are there. -/
theorem StandsAs.aimAll (h : p.StandsAs b) : Instr.aimAll p.code (b.targets 0) = p.code := by
  refine Array.ext_getElem? fun a => ?_
  cases hi : p.code[a]? with
  | none => rw [Instr.getElem?_aimAll, hi, Option.map_none]
  | some i =>
    cases hjump : i.op.isJump with
    | false => exact aimAll_not_jump h.1 hi hjump
    | true =>
      obtain ⟨c, hc, hw, hstands⟩ :=
        h.exists_construct (opAt_of_getElem? hi) (Op.isBlockWord_of_isJump hjump)
      rw [← hi]
      exact (constructs_linked h.1 c hc).getElem?_eq hstands.linkedIn hw hjump

theorem StandsAs.link (h : p.StandsAs b) (hp : p.linked = true) :
    ({ p with linked := false } : Program).link = (p, none) := by
  refine (link_of_ops_eq (p := { p with linked := false }) rfl h.1).trans ?_
  rw [h.aimAll, ← hp]

/-- **A program without issues is linked as its words ask for exactly if its jumps pair the words
off.**  Its jumps all land, inside the program.  Beyond that, its words are those of a block and
linking them anew gives its jumps just if the jumps pair the words up. -/
theorem lint_linked_iff_pairedUp (hsize : p.size < 0x8000000000000000) (hlint : p.lint = []) :
    (∀ a op, OpAt p.code a op → op.isJump = true →
      ∃ t ≤ p.size, GoesTo p.code a op t ∧ Lands p.code a op t) ∧
    (((∃ b : Block, p.ops = b.ops) ∧ ({ p with linked := false } : Program).link = (p, none)) ↔
      PairedUp p.code) := by
  have hland := landing_of_lint hlint
  refine ⟨hland, fun ⟨_, hlink⟩ => ?_, fun hpaired => ?_⟩
  · obtain ⟨b, hb⟩ := standsAs_of_link hsize hlink
    exact hb.pairedUp
  · obtain ⟨b, hb⟩ := standsAs_of_pairedUp hland hpaired
    exact ⟨⟨b, hb.1⟩, hb.link (lint_eq_nil_iff.1 hlint).1⟩

/-- A loop in a choice is paired up; two `IF`s that go to each other's `END` are not. -/
theorem lint_linked_iff_pairedUp_nested :
    let p : Program :=
      { code := #[⟨.branch, 7⟩, ⟨.loop, 0⟩, ⟨.pushTrue, 0⟩, ⟨.body, 6⟩, ⟨.dump, 0⟩, ⟨.close, 1⟩,
          ⟨.otherwise, 7⟩, ⟨.close, 8⟩]
        linked := true }
    let q : Program :=
      { code := #[⟨.branch, 2⟩, ⟨.branch, 3⟩, ⟨.close, 3⟩, ⟨.close, 4⟩], linked := true }
    (p.lint = [] ∧ PairedUp p.code) ∧ q.lint = [] ∧ ¬ PairedUp q.code := by
  intro p q
  have hp : p.lint = [] := by decide
  have hq : q.lint = [] := by decide
  refine ⟨⟨hp, ?_⟩, hq, fun hpaired => ?_⟩
  · refine (lint_linked_iff_pairedUp (by decide) hp).2.1 ⟨?_, by decide⟩
    exact ⟨.choice (.loop (.plain ⟨⟨.pushTrue, 0⟩, rfl⟩ .nil) (.plain ⟨⟨.dump, 0⟩, rfl⟩ .nil) .nil)
      .nil .nil, rfl⟩
  · have hlink := ((lint_linked_iff_pairedUp (by decide) hq).2.2 hpaired).2
    revert hlink
    decide

/-- The checks accept an `END` that closes nothing, and two `IF`s that go to each other's `END`,
although those are the words of a block. -/
theorem lint_accepts_mislinked :
    let p : Program := { code := #[⟨.close, 1⟩], linked := true }
    let q : Program :=
      { code := #[⟨.branch, 2⟩, ⟨.branch, 3⟩, ⟨.close, 3⟩, ⟨.close, 4⟩], linked := true }
    (p.lint = [] ∧ ¬ ∃ b : Block, p.ops = b.ops) ∧
      q.lint = [] ∧ (∃ b : Block, q.ops = b.ops) ∧
        ({ q with linked := false } : Program).link ≠ (q, none) := by
  intro p q
  refine ⟨⟨by decide, fun hb => ?_⟩, by decide, ⟨.when (.when .nil .nil) .nil, rfl⟩, by decide⟩
  have hlink := (link_eq_none_iff (p := { p with linked := false }) rfl).2 hb
  revert hlink
  decide

end Program

end StackLang

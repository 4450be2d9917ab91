import StackLang.Proofs.Assembly.Emission
import StackLang.Proofs.Assembly.Processor
import StackLang.Proofs.Assembly.Reading
import StackLang.Proofs.Machine.Step

/-!
# Compiled code does what the machine does

A processor that runs compiled code follows the machine from label to label.  Between two labels
only the stack of the processor and what it has written matter: they are a store of the machine,
with the operands as unsigned words, and the registers may hold anything.  `Native.Passes` is what
code does in these terms.

One instruction of the machine is one stretch of code (`follows_of_moves`), so a run of the machine
is a run of the processor (`follows_stepTimes`), and a machine that halts takes the processor
through the exit sequence (`reaches_exit`).
-/

set_option autoImplicit false

namespace StackLang.Assembly

/-- The instructions in the code of programs that always go on with the next one. -/
def Inst.isStraight : Inst → Bool
  | .pushImm _ | .push _ | .pop _ | .movImm _ _ | .add _ _ | .sub _ _ | .cmp _ _ | .test _ _
  | .moveEqual _ _ | .moveGreater _ _ | .call .dump => true
  | _ => false

open StateTransition (Reaches)

namespace Native

open Block (Store ofTruth)
open Machine (Moves)
open Processor (reaches_inst reaches_next)

variable {leave : Native → Registers} {its : List Item} {m m' m'' : Native} {i : Inst}
  {insts : List Inst} {s t u : Store} {j z : Nat}

/-! ## Code in a straight line -/

theorem next_of_exec (hi : i.isStraight = true) (h : m.exec leave its i = some m') :
    m'.pc = m.pc + 1 ∧ m'.exited = m.exited := by
  cases i with
  | pushImm | push | movImm | add | sub | cmp | test =>
    cases h
    exact ⟨rfl, rfl⟩
  | pop r =>
    obtain ⟨pc, data, _ | ⟨v, stack⟩, out, exited⟩ := m <;> cases h
    exact ⟨rfl, rfl⟩
  | moveEqual d s =>
    change (m.data.compute (.moveEqual d s)).map (fun data => { m.next with data }) = some m' at h
    obtain ⟨data, -, rfl⟩ := Option.map_eq_some_iff.1 h
    exact ⟨rfl, rfl⟩
  | moveGreater d s =>
    change (m.data.compute (.moveGreater d s)).map (fun data => { m.next with data }) = some m' at h
    obtain ⟨data, -, rfl⟩ := Option.map_eq_some_iff.1 h
    exact ⟨rfl, rfl⟩
  | call l =>
    cases l <;> cases hi
    obtain ⟨-, hsome⟩ := Option.ite_none_right_eq_some.1 h
    cases hsome
    exact ⟨rfl, rfl⟩
  | _ => cases hi

/-- Code in a straight line is executed one instruction after the other. -/
theorem reaches_insts (hat : ItemsAt its m.pc (insts.map .inst)) (hm : m.exited = false)
    (hst : insts.all Inst.isStraight = true) (h : insts.foldlM (exec leave its) m = some m') :
    Reaches (step leave its) m m' := by
  induction insts generalizing m with
  | nil =>
    cases h
    exact .refl
  | cons i insts ih =>
    rw [List.foldlM_cons] at h
    rw [List.all_cons, Bool.and_eq_true] at hst
    obtain ⟨m₁, hexec, hrest⟩ := Option.bind_eq_some_iff.1 h
    obtain ⟨hpc, hex⟩ := next_of_exec hst.1 hexec
    have hstep : Reaches (step leave its) m m₁ := reaches_inst hm hat.1 hexec
    exact hstep.trans (ih (hpc ▸ hat.2) (hex.trans hm) hst.2 hrest)

/-! ## Stretches of code between labels -/

/-- A processor at place `j` with the operands and the output of a store. -/
def ofStore (j : Nat) (data : Datapath) (s : Store) : Native :=
  { pc := j, data, stack := s.stack.map Int64.toUInt64, out := s.out }

/-- The processor at place `j` with the store `s` gets to `z` with the store `t`, whatever the
registers hold. -/
def Passes (leave : Native → Registers) (its : List Item) (j : Nat) (s : Store) (z : Nat)
    (t : Store) : Prop :=
  ∀ data, ∃ data', Reaches (step leave its) (ofStore j data s) (ofStore z data' t)

theorem Passes.refl : Passes leave its j s j s := fun data => ⟨data, .refl⟩

theorem Passes.trans {y : Nat} (h₁ : Passes leave its j s y t) (h₂ : Passes leave its y t z u) :
    Passes leave its j s z u := by
  intro data
  obtain ⟨data₁, hr₁⟩ := h₁ data
  obtain ⟨data₂, hr₂⟩ := h₂ data₁
  exact ⟨data₂, hr₁.trans hr₂⟩

theorem passes_other {x : Item} (hx : its[j]? = some x) (hne : ∀ i, x ≠ .inst i) :
    Passes leave its j s (j + 1) s :=
  fun data => ⟨data, reaches_next (m := ofStore j data s) rfl hx hne⟩

theorem passes_insts (hat : ItemsAt its j (insts.map .inst))
    (hst : insts.all Inst.isStraight = true)
    (h : ∀ data, ∃ data', insts.foldlM (exec leave its) (ofStore j data s)
      = some (ofStore z data' t)) : Passes leave its j s z t := by
  intro data
  obtain ⟨data', hrun⟩ := h data
  exact ⟨data', reaches_insts (m := ofStore j data s) hat rfl hst hrun⟩

/-! ## The operations -/

variable {a n : Nat} {x y : Int64} {st : List Int64} {o : String} {l : Label}

theorem toUInt64_inj : x.toUInt64 = y.toUInt64 ↔ x = y := by
  refine ⟨fun h => ?_, fun h => h ▸ rfl⟩
  rw [← Int64.toInt64_toUInt64 x, h, Int64.toInt64_toUInt64]

/-- An immediate that fits into 32 bits is pushed as it is. -/
theorem operand_of_isShort (h : isShort x = true) : operand x = x.toUInt64 := by
  simp only [isShort, Bool.and_eq_true, decide_eq_true_eq] at h
  have hsame : x.toInt32.toInt64 = x := by
    refine Int64.toInt_inj.1 ?_
    rw [Int32.toInt_toInt64, Int64.toInt_toInt32, Int.bmod_eq_of_le_mul_two (by omega) (by omega)]
  rw [operand, hsame]

theorem exec_pushImm {data : Datapath} (h : isShort x = true) :
    exec leave its (ofStore j data ⟨st, o⟩) (.pushImm x)
      = some (ofStore (j + 1) data ⟨x :: st, o⟩) := by
  rw [ofStore, ofStore, List.map_cons, ← operand_of_isShort h]
  rfl

theorem exec_call {data : Datapath} (h : hasRoutine its = true)
    (hrdi : data.regs .rdi = x.toUInt64) :
    exec leave its (ofStore j data ⟨st, o⟩) (.call .dump) =
      some (ofStore (j + 1) { regs := leave (ofStore j data ⟨st, o⟩) }
        ⟨st, o ++ toString x ++ "\n"⟩) := by
  refine (if_pos h).trans ?_
  rw [← Int64.toInt64_toUInt64 x, ← hrdi]
  rfl

theorem run_dump (h : hasRoutine its = true) (data : Datapath) :
    ∃ data', [.pop .rdi, .call .dump].foldlM (exec leave its) (ofStore j data ⟨x :: st, o⟩)
      = some (ofStore (j + 2) data' ⟨st, o ++ toString x ++ "\n"⟩) := by
  have hpop : ∃ data₁, data₁.regs .rdi = x.toUInt64 ∧
      exec leave its (ofStore j data ⟨x :: st, o⟩) (.pop .rdi)
        = some (ofStore (j + 1) data₁ ⟨st, o⟩) := ⟨_, rfl, rfl⟩
  obtain ⟨data₁, hrdi, hexec⟩ := hpop
  refine ⟨{ regs := leave (ofStore (j + 1) data₁ ⟨st, o⟩) }, ?_⟩
  rw [List.foldlM_cons, hexec, Option.bind_eq_bind, Option.bind_some, List.foldlM_cons,
    exec_call h hrdi]
  rfl

/-- A conditional move of 1 over 0 leaves a truth value. -/
theorem exec_move {data : Datapath} {k : Conditions} {move : Inst} {r : Bool}
    (hk : data.conditions = some k) (hrcx : data.regs .rcx = 0) (hrdx : data.regs .rdx = 1)
    (hmove : move = .moveEqual .rcx .rdx ∧ k.zero = r ∨
      move = .moveGreater .rcx .rdx ∧ k.greater = r) :
    ∃ data', exec leave its (ofStore j data s) move = some (ofStore (j + 1) data' s) ∧
      data'.regs .rcx = (ofTruth r).toUInt64 := by
  obtain ⟨regs, conditions⟩ := data
  cases hk
  obtain ⟨zero, sign, above, greater⟩ := k
  rcases hmove with ⟨rfl, rfl⟩ | ⟨rfl, rfl⟩
  · cases zero
    · exact ⟨_, rfl, hrcx⟩
    · exact ⟨_, rfl, hrdx⟩
  · cases greater
    · exact ⟨_, rfl, hrcx⟩
    · exact ⟨_, rfl, hrdx⟩

theorem exec_push_truth {data : Datapath} {r : Bool}
    (h : data.regs .rcx = (ofTruth r).toUInt64) :
    exec leave its (ofStore j data ⟨st, o⟩) (.push .rcx)
      = some (ofStore (j + 1) data ⟨ofTruth r :: st, o⟩) := by
  rw [ofStore, ofStore, List.map_cons, ← h]
  rfl

/-- A comparison up to its conditional move. -/
def comparisonFront (first second : Reg) : List Inst :=
  [.movImm .rcx 0, .movImm .rdx 1, .pop first, .pop second, .cmp .rax .rbx]

theorem comparison_eq (first second : Reg) (move : Inst) :
    comparison first second move = comparisonFront first second ++ [move, .push .rcx] := rfl

/-- A comparison pushes what its conditional move depends on. -/
theorem run_comparison {first second : Reg} {move : Inst} {data : Datapath} {k : Conditions}
    {r : Bool} (hk : data.conditions = some k) (hrcx : data.regs .rcx = 0)
    (hrdx : data.regs .rdx = 1)
    (hfront : (comparisonFront first second).foldlM (exec leave its) m
      = some (ofStore j data ⟨st, o⟩))
    (hmove : move = .moveEqual .rcx .rdx ∧ k.zero = r ∨
      move = .moveGreater .rcx .rdx ∧ k.greater = r) :
    ∃ data', (comparison first second move).foldlM (exec leave its) m
      = some (ofStore (j + 2) data' ⟨ofTruth r :: st, o⟩) := by
  obtain ⟨data', hexec, htruth⟩ := exec_move hk hrcx hrdx hmove
  refine ⟨data', ?_⟩
  rw [comparison_eq, List.foldlM_append, hfront, Option.bind_eq_bind, Option.bind_some,
    List.foldlM_cons, hexec, Option.bind_eq_bind, Option.bind_some, List.foldlM_cons,
    exec_push_truth htruth]
  rfl

theorem run_equal (data : Datapath) :
    ∃ data', (comparison .rax .rbx (.moveEqual .rcx .rdx)).foldlM (exec leave its)
        (ofStore j data ⟨x :: y :: st, o⟩)
      = some (ofStore (j + 7) data' ⟨ofTruth (decide (y = x)) :: st, o⟩) := by
  have hfront : ∃ data₁, data₁.conditions = some (.ofCompare x.toUInt64 y.toUInt64) ∧
      data₁.regs .rcx = 0 ∧ data₁.regs .rdx = 1 ∧
      (comparisonFront .rax .rbx).foldlM (exec leave its) (ofStore j data ⟨x :: y :: st, o⟩)
        = some (ofStore (j + 5) data₁ ⟨st, o⟩) := ⟨_, rfl, rfl, rfl, rfl⟩
  have hzero : (Conditions.ofCompare x.toUInt64 y.toUInt64).zero = decide (y = x) :=
    decide_eq_decide.2 (toUInt64_inj.trans eq_comm)
  obtain ⟨data₁, hk, hrcx, hrdx, hrun⟩ := hfront
  exact run_comparison hk hrcx hrdx hrun (.inl ⟨rfl, hzero⟩)

/-- The comparison is one of signed numbers, the lower entry first. -/
theorem run_greater (data : Datapath) :
    ∃ data', (comparison .rbx .rax (.moveGreater .rcx .rdx)).foldlM (exec leave its)
        (ofStore j data ⟨x :: y :: st, o⟩)
      = some (ofStore (j + 7) data' ⟨ofTruth (decide (x < y)) :: st, o⟩) := by
  have hfront : ∃ data₁, data₁.conditions = some (.ofCompare y.toUInt64 x.toUInt64) ∧
      data₁.regs .rcx = 0 ∧ data₁.regs .rdx = 1 ∧
      (comparisonFront .rbx .rax).foldlM (exec leave its) (ofStore j data ⟨x :: y :: st, o⟩)
        = some (ofStore (j + 5) data₁ ⟨st, o⟩) := ⟨_, rfl, rfl, rfl, rfl⟩
  have hgreater : (Conditions.ofCompare y.toUInt64 x.toUInt64).greater = decide (x < y) := rfl
  obtain ⟨data₁, hk, hrcx, hrdx, hrun⟩ := hfront
  exact run_comparison hk hrcx hrdx hrun (.inr ⟨rfl, hgreater⟩)

/-- The code of a plain operation does what the operation does. -/
theorem passes_apply {i : Instr} (hroutine : hasRoutine its = true)
    (hcode : code a n i = .ok insts) (hat : ItemsAt its j (insts.map .inst)) (hmem : i.op ≠ .mem)
    (happ : s.apply i = some t) :
    Passes leave its j s (j + insts.length) t := by
  obtain ⟨op, imm⟩ := i
  obtain ⟨st, o⟩ := s
  cases op with
  | push =>
    cases happ
    simp only [code, Except.ok.injEq] at hcode
    subst hcode
    by_cases hs : isShort imm
    · rw [if_pos hs] at hat ⊢
      exact passes_insts hat rfl fun data => ⟨data, by
        rw [List.foldlM_cons, exec_pushImm hs]
        rfl⟩
    · rw [if_neg hs] at hat ⊢
      exact passes_insts hat rfl fun data => ⟨_, rfl⟩
  | pushTrue | pushFalse =>
    cases happ
    cases hcode
    exact passes_insts hat rfl fun data => ⟨_, rfl⟩
  | plus =>
    obtain _ | ⟨x, _ | ⟨y, st⟩⟩ := st <;> cases happ
    cases hcode
    -- the code adds the lower entry to the upper one
    rw [Int64.add_comm y x]
    exact passes_insts hat rfl fun data => ⟨_, rfl⟩
  | minus =>
    obtain _ | ⟨x, _ | ⟨y, st⟩⟩ := st <;> cases happ
    cases hcode
    exact passes_insts hat rfl fun data => ⟨_, rfl⟩
  | equal =>
    obtain _ | ⟨x, _ | ⟨y, st⟩⟩ := st <;> cases happ
    cases hcode
    exact passes_insts hat rfl run_equal
  | greater =>
    obtain _ | ⟨x, _ | ⟨y, st⟩⟩ := st <;> cases happ
    cases hcode
    exact passes_insts hat rfl run_greater
  | dupl =>
    obtain _ | ⟨x, st⟩ := st <;> cases happ
    cases hcode
    exact passes_insts hat rfl fun data => ⟨_, rfl⟩
  | dump =>
    obtain _ | ⟨x, st⟩ := st <;> cases happ
    cases hcode
    exact passes_insts hat rfl (run_dump hroutine)
  | mem => exact absurd rfl hmem
  | _ => cases happ

theorem zero_ofTest (x : Int64) :
    (Conditions.ofTest x.toUInt64 x.toUInt64).zero = decide (x = 0) := by
  have hzero : x.toUInt64 = 0 ↔ x = 0 := toUInt64_inj (y := 0)
  rw [← decide_eq_decide.2 hzero, Conditions.ofTest, UInt64.and_self]
  rfl

theorem exec_jumpZero {data : Datapath}
    (hdata : data.conditions = some (.ofTest x.toUInt64 x.toUInt64))
    (hl : labelAt? its l = some z) :
    exec leave its (ofStore j data s) (.jumpZero l)
      = some (ofStore (if x = 0 then z else j + 1) data s) := by
  change data.conditions.bind (fun k => if k.zero then (ofStore j data s).goto its l
    else some (ofStore j data s).next) = _
  rw [hdata, Option.bind_some, zero_ofTest, goto, hl]
  by_cases hx : x = 0
  · rw [if_pos (decide_eq_true hx), if_pos hx]
    rfl
  · rw [if_neg (by simpa using hx), if_neg hx]
    rfl

/-- The code of a condition goes to the label just if the condition is 0. -/
theorem passes_condition (hat : ItemsAt its j ([.pop .rax, .test .rax .rax, .jumpZero l].map .inst))
    (hl : labelAt? its l = some z) :
    Passes leave its j ⟨x :: st, o⟩ (if x = 0 then z else j + 3) ⟨st, o⟩ := by
  intro data
  have hfront : ItemsAt its j ([.pop .rax, .test .rax .rax].map .inst) :=
    ⟨hat.1, hat.2.1, trivial⟩
  have htest : ∃ data₁, data₁.conditions = some (.ofTest x.toUInt64 x.toUInt64) ∧
      Reaches (step leave its) (ofStore j data ⟨x :: st, o⟩) (ofStore (j + 2) data₁ ⟨st, o⟩) :=
    ⟨_, rfl, reaches_insts (m := ofStore j data ⟨x :: st, o⟩) hfront rfl rfl rfl⟩
  obtain ⟨data₁, hdata₁, hreach⟩ := htest
  have hjump : exec leave its (ofStore (j + 2) data₁ ⟨st, o⟩) (.jumpZero l) = _ :=
    exec_jumpZero hdata₁ hl
  exact ⟨data₁, hreach.trans (reaches_inst rfl hat.2.2.1 hjump)⟩

theorem passes_jmp (hat : its[j]? = some (.inst (.jmp l))) (hl : labelAt? its l = some z) :
    Passes leave its j s z s := by
  intro data
  refine ⟨data, reaches_inst (m := ofStore j data s) rfl hat ?_⟩
  change (labelAt? its l).map (fun pc => { ofStore j data s with pc }) = _
  rw [hl]
  rfl

/-! ## From label to label -/

variable {p : Program}

/-- The processor gets from the label of `a` with the store `s` to the label of `z` with the store
`t`. -/
def Follows (leave : Native → Registers) (its : List Item) (a : Nat) (s : Store) (z : Nat)
    (t : Store) : Prop :=
  ∃ j j', labelAt? its (.addr a) = some j ∧ labelAt? its (.addr z) = some j' ∧
    Passes leave its j s j' t

theorem Follows.refl (hp : TranslatableProgram p) (ha : a ≤ p.size) :
    Follows leave (items p) a s a s := by
  obtain ⟨j, hj⟩ := exists_labelAt? hp ha
  exact ⟨j, j, hj, hj, .refl⟩

theorem Follows.trans {y : Nat} (h₁ : Follows leave its a s y t) (h₂ : Follows leave its y t z u) :
    Follows leave its a s z u := by
  obtain ⟨j, j', hj, hj', hpass⟩ := h₁
  obtain ⟨k, k', hk, hk', hpass'⟩ := h₂
  cases hj'.symm.trans hk
  exact ⟨j, k', hj, hk', hpass.trans hpass'⟩

/-- The label and the heading in front of the code of an instruction are passed over. -/
theorem passes_front {i : Instr} (h : Placed its n a i j insts) :
    Passes leave its j s (j + 2) s :=
  (passes_other h.items.1 (by simp)).trans (passes_other h.items.2.1 (by simp))

theorem follows_next {i : Instr} (h : Placed its n a i j insts)
    (hpass : Passes leave its (j + 2) s (j + 2 + insts.length) t) :
    Follows leave its a s (a + 1) t :=
  ⟨j, _, h.label, h.next, (passes_front h).trans hpass⟩

theorem follows_target {i : Instr} (h : Placed its n a i j insts) {y : Nat}
    (hy : labelAt? its (.addr z) = some y) (hpass : Passes leave its (j + 2) s y t) :
    Follows leave its a s z t :=
  ⟨j, y, h.label, hy, (passes_front h).trans hpass⟩

theorem mem_of_code {i : Instr} (hi : p.code[a]? = some i) : i ∈ p.code.toList :=
  Array.mem_toList_iff.2 (Array.mem_of_getElem? hi)

/-- **One instruction of the machine is one stretch of code.** -/
theorem follows_of_moves {i : Instr} (hp : TranslatableProgram p)
    (hsize : p.size < 0x8000000000000000) (hi : p.code[a]? = some i) (hmem : i.op ≠ .mem)
    (h : Moves i a s z t) : Follows leave (items p) a s z t := by
  obtain ⟨-, hrange⟩ := hp i (mem_of_code hi)
  obtain ⟨j, insts, hplaced⟩ := placed hp hi
  have hat := hplaced.items.2.2
  cases h with
  | apply happ => exact follows_next hplaced (passes_apply (hasRoutine_items p) hplaced.code_eq hat
      hmem happ)
  | loop hop =>
    have hcode : code a p.size i = .ok [] := by rw [code, hop]
    cases hplaced.code_eq.symm.trans hcode
    exact follows_next hplaced .refl
  | @zero st o hop =>
    have hjump := hrange (Machine.isJump_of_condition hop)
    obtain ⟨y, hy⟩ := exists_labelAt? hp (a := i.imm.toInt.toNat) (by omega)
    cases hplaced.code_eq.symm.trans (code_condition hop hjump)
    have hpass : Passes leave (items p) (j + 2) ⟨0 :: st, o⟩ _ ⟨st, o⟩ := passes_condition hat hy
    exact follows_target hplaced hy (by rwa [if_pos rfl] at hpass)
  | @nonzero x st o hop hx =>
    have hjump := hrange (Machine.isJump_of_condition hop)
    obtain ⟨y, hy⟩ := exists_labelAt? hp (a := i.imm.toInt.toNat) (by omega)
    cases hplaced.code_eq.symm.trans (code_condition hop hjump)
    have hpass : Passes leave (items p) (j + 2) ⟨x :: st, o⟩ _ ⟨st, o⟩ := passes_condition hat hy
    exact follows_next hplaced (by rwa [if_neg hx] at hpass)
  | jump hop =>
    have hjump := hrange (Machine.isJump_of_jump hop)
    obtain ⟨y, hy⟩ := exists_labelAt? hp (a := i.imm.toInt.toNat) (by omega)
    rcases hop with hop | hop
    · cases hplaced.code_eq.symm.trans (code_otherwise hop hjump)
      exact follows_target hplaced hy (passes_jmp hat.1 hy)
    · have hcode := hplaced.code_eq.symm.trans (code_close hop hjump)
      by_cases hnext : i.imm = Int64.ofNat (a + 1)
      · -- the jump was left out, and its target is the label behind it
        have hlt : a < p.size := (Array.getElem?_eq_some_iff.1 hi).1
        have htarget : i.imm.toInt.toNat = a + 1 := by
          rw [hnext, Int64.toInt_ofNat_of_lt (by omega), Int.toNat_natCast]
        rw [if_pos hnext] at hcode
        cases hcode
        rw [htarget]
        exact follows_next hplaced .refl
      · rw [if_neg hnext] at hcode
        cases hcode
        exact follows_target hplaced hy (passes_jmp hat.1 hy)

/-! ## Runs -/

theorem follows_step {c : Nat} {q : Machine} (hp : TranslatableProgram p)
    (hsize : p.size < 0x8000000000000000) (hmem : ∀ i ∈ p.code.toList, i.op ≠ .mem)
    (ha : a ≤ p.size) (h : (Machine.ofStore p.code a s c).step = (q, none)) :
    ∃ z t c', q = Machine.ofStore p.code z t c' ∧ z ≤ p.size ∧
      Follows leave (items p) a s z t := by
  cases hi : p.code[a]? with
  | none =>
    have hhalt : (Machine.ofStore p.code a s c).halted = true := Machine.halted_iff.2 hi
    cases (Machine.step_of_halted hhalt).symm.trans h
    exact ⟨a, s, c, rfl, ha, .refl hp ha⟩
  | some i =>
    obtain ⟨z, t, rfl, hmoves⟩ := Machine.moves_of_step hi h
    have hfollows : Follows leave (items p) a s z t :=
      follows_of_moves hp hsize hi (hmem i (mem_of_code hi)) hmoves
    have hlt : a < p.size := (Array.getElem?_eq_some_iff.1 hi).1
    have hz : z ≤ p.size := hmoves.le hlt fun hj => ((hp i (mem_of_code hi)).2 hj).2
    exact ⟨z, t, c + 1, rfl, hz, hfollows⟩

/-- **The processor follows a run of the machine from label to label.** -/
theorem follows_stepTimes {k c : Nat} {q : Machine} (leave : Native → Registers)
    (hp : TranslatableProgram p) (hsize : p.size < 0x8000000000000000)
    (hmem : ∀ i ∈ p.code.toList, i.op ≠ .mem) (ha : a ≤ p.size)
    (h : Machine.stepTimes k (Machine.ofStore p.code a s c) = some q) :
    ∃ z t c', q = Machine.ofStore p.code z t c' ∧ z ≤ p.size ∧
      Follows leave (items p) a s z t := by
  induction k generalizing a s c with
  | zero =>
    cases h
    exact ⟨a, s, c, rfl, ha, .refl hp ha⟩
  | succ k ih =>
    rcases hstep : (Machine.ofStore p.code a s c).step with ⟨q₁, _ | f⟩
    · obtain ⟨y, u, c₁, rfl, hy, hfollows⟩ := follows_step hp hsize hmem ha hstep
      rw [Machine.stepTimes_succ hstep] at h
      obtain ⟨z, t, c', rfl, hz, hrest⟩ := ih hy h
      exact ⟨z, t, c', rfl, hz, hfollows.trans hrest⟩
    · rw [Machine.stepTimes, hstep] at h
      cases h

/-- At the end of a program the process is left. -/
theorem reaches_exit (leave : Native → Registers) {data : Datapath}
    (hat : ItemsAt its j (exitSequence n)) :
    ∃ m, Reaches (step leave its) (ofStore j data s) m ∧ m.exited = true ∧ m.data.regs .rdi = 0 ∧
      m.out = s.out := by
  have hset : ItemsAt its (j + 1) ([.movImm .rax 60, .movImm .rdi 0].map .inst) :=
    ⟨hat.2.1, hat.2.2.1, trivial⟩
  have hlabel : Reaches (step leave its) (ofStore j data s) (ofStore (j + 1) data s) :=
    reaches_next (m := ofStore j data s) rfl hat.1 (by simp)
  have hregs : Reaches (step leave its) (ofStore (j + 1) data s) (ofStore (j + 3) _ s) :=
    reaches_insts (m := ofStore (j + 1) data s) hset rfl rfl rfl
  exact ⟨_, (hlabel.trans hregs).trans (reaches_inst rfl hat.2.2.2.1 rfl), rfl, rfl, rfl⟩

/-- The processor gets from the start to the label of the first instruction. -/
theorem reaches_zero (leave : Native → Registers) (regs : Registers) (hp : TranslatableProgram p) :
    ∃ m j, start? (items p) regs = some m ∧ labelAt? (items p) (.addr 0) = some j ∧
      Reaches (step leave (items p)) m (ofStore j { regs } {}) := by
  have hlabel : (items p)[lead.length]? = some (.label .start) := by
    rw [items_eq, List.getElem?_append_right (Nat.le_refl _), Nat.sub_self]
    rfl
  refine ⟨ofStore lead.length { regs } {}, lead.length + 1, ?_, labelAt?_zero hp, ?_⟩
  · rw [start?, labelAt?_start]
    rfl
  · exact reaches_next (m := ofStore lead.length { regs } {}) rfl hlabel (by simp)

end Native

/-! ## The text of a program -/

/-- **The text of a program does what the program does.**  Take a linked program without `MEMORY`
whose operations are defined and whose jumps stay inside it.  Its text is written, and can be read
as code.  As far as the machine gets, the processor that starts this code gets to the label of the
address the machine is at, with the same operands on its stack and the same output; and if the
machine halts, the processor leaves the process, with the output of the machine. -/
theorem emitted_text_simulates {p : Program} (hlinked : p.linked = true)
    (hsize : p.size < 0x8000000000000000)
    (hops : ∀ i ∈ p.code, i.op.isDefined = true ∧ i.op ≠ .mem)
    (hjumps : ∀ i ∈ p.code, i.op.isJump = true → 0 ≤ i.imm.toInt ∧ i.imm.toInt ≤ p.size)
    (leave : Native → Registers) (regs : Registers) :
    ∃ text its q start, emit p (Sink.buffer "") = (.buffer text, none) ∧ readText? text = some its ∧
      Machine.ofProgram? p (Sink.buffer "") = some q ∧ Native.start? its regs = some start ∧
      (∀ k q', Machine.stepTimes k q = some q' → ∃ m, Reaches (Native.step leave its) start m ∧
        labelAt? its (.addr q'.ip) = some m.pc ∧ m.stack = q'.stack.map Int64.toUInt64 ∧
        q'.out = .buffer m.out ∧ m.exited = false) ∧
      ∀ q', q.Ends q' .halted → ∃ m, Reaches (Native.step leave its) start m ∧ m.exited = true ∧
        m.data.regs .rdi = 0 ∧ q'.out = .buffer m.out := by
  have hp : TranslatableProgram p := fun i hi =>
    ⟨(hops i (Array.mem_toList_iff.1 hi)).1, hjumps i (Array.mem_toList_iff.1 hi)⟩
  have hmem : ∀ i ∈ p.code.toList, i.op ≠ .mem := fun i hi => (hops i (Array.mem_toList_iff.1 hi)).2
  obtain ⟨start, j, hstart, hj, hzero⟩ := Native.reaches_zero leave regs hp
  have hq : Machine.ofProgram? p (Sink.buffer "") = some (Machine.ofStore p.code 0 {} 0) := by
    rw [Machine.ofProgram?, if_pos hlinked]
    rfl
  -- where the machine gets, with the label there and the processor at it
  have hrun : ∀ {k q'}, Machine.stepTimes k (Machine.ofStore p.code 0 {} 0) = some q' →
      ∃ z t c y data, q' = Machine.ofStore p.code z t c ∧ z ≤ p.size ∧
        labelAt? (items p) (.addr z) = some y ∧
        Reaches (Native.step leave (items p)) start (Native.ofStore y data t) := by
    intro k q' hk
    obtain ⟨z, t, c, rfl, hz, j', y, hj', hy, hpass⟩ :=
      Native.follows_stepTimes leave hp hsize hmem (Nat.zero_le _) hk
    cases hj.symm.trans hj'
    obtain ⟨data, hreach⟩ := hpass { regs }
    exact ⟨z, t, c, y, data, rfl, hz, hy, hzero.trans hreach⟩
  refine ⟨text p, items p, _, start, emit_eq hlinked hp, readText?_text hp, hq, hstart,
    fun k q' hk => ?_, fun q' hq' => ?_⟩
  · obtain ⟨z, t, c, y, data, rfl, -, hy, hreach⟩ := hrun hk
    exact ⟨_, hreach, hy, rfl, rfl, rfl⟩
  · obtain ⟨k, hk, hhalt⟩ := hq'.exists_stepTimes
    obtain ⟨z, t, c, y, data, rfl, hz, hy, hreach⟩ := hrun hk
    obtain ⟨y', hy', hat⟩ := exit_placed hp
    have hend : z = p.size := Nat.le_antisymm hz (of_decide_eq_true hhalt)
    subst hend
    cases hy.symm.trans hy'
    obtain ⟨m, hm, hexit, hstatus, hout⟩ := Native.reaches_exit leave hat
    exact ⟨m, hreach.trans hm, hexit, hstatus, congrArg Sink.buffer hout.symm⟩

/-- `PUSH 5000000000 WHILE DUPL DO DUMP FALSE END` has a literal that takes a register, a loop and a
jump back, and writes one line. -/
theorem emitted_text_simulates_loop :
    ∃ (p : Program) (text : String) (its : List Item) (start m : Native),
      p.code.size = 7 ∧ emit p (Sink.buffer "") = (.buffer text, none) ∧ readText? text = some its ∧
      Native.start? its (fun _ => 1) = some start ∧
      Reaches (Native.step (fun _ _ => 2) its) start m ∧ m.exited = true ∧
      m.out = "5000000000\n" := by
  let p : Program :=
    { code := #[⟨.push, 5000000000⟩, ⟨.loop, 0⟩, ⟨.dupl, 0⟩, ⟨.body, 7⟩, ⟨.dump, 0⟩,
        ⟨.pushFalse, 0⟩, ⟨.close, 1⟩]
      linked := true }
  obtain ⟨text, its, q, start, htext, hits, hq, hstart, -, hexit⟩ :=
    emitted_text_simulates (p := p) rfl (by decide) (by decide) (by decide) (fun _ _ => 2)
      (fun _ => 1)
  cases hq
  obtain ⟨m, hm, hexited, -, hout⟩ := hexit _ ⟨by simp, 10, rfl⟩
  have hline : "" ++ (toString (5000000000 : Int64) ++ "\n") = "5000000000\n" := by decide
  exact ⟨p, text, its, start, m, rfl, htext, hits, hstart, hm, hexited,
    (Sink.buffer.inj hout).symm.trans hline⟩

end StackLang.Assembly

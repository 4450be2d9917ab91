import Mathlib.Data.List.Basic
import StackLang.Proofs.Assembly.Emission
import StackLang.Proofs.Assembly.Reading
import StackLang.Proofs.Lint.Linked
import StackLang.Proofs.Machine.Step

/-!
# The jumps in a text

The labels and jumps of a compiled program are a picture of where its instructions go.  `jump?` says
which jump an instruction is compiled to, `flow` puts its label in front, and `filter_compileFrom`
shows that in compiled code there are no other labels and no other jumps.  Addresses, targets and
numbers of jumps are then read off these, and not off the code.

A closing word has a jump unless that would only go on.  In a linked program this tells choices from
loops (`jumpLine?_eq_none_iff`), so that as many closing words go back as there are loops
(`count_returns`).

All of it is said of the lines of a text, by what an assembler reads there (`emitted_jumps`).
-/

set_option autoImplicit false

namespace StackLang.Assembly

open Lint (OpAt GoesTo)

variable {a n : Nat} {i : Instr} {l : List Instr} {insts : List Inst} {p : Program}

/-! ## Labels and jumps -/

namespace Item

/-- Whether an item is a label or a jump. -/
def steers : Item → Bool
  | label _ => true
  | inst (.jmp _) | inst (.jumpZero _) | inst (.jumpNotSign _) | inst (.jumpAbove _) => true
  | _ => false

/-- The address that an item is the label of. -/
def address? : Item → Option Nat
  | label (.addr a) => some a
  | _ => none

/-- The address that an item goes to on zero. -/
def onZero? : Item → Option Nat
  | inst (.jumpZero (.addr z)) => some z
  | _ => none

/-- The address that an item goes to in any case. -/
def always? : Item → Option Nat
  | inst (.jmp (.addr z)) => some z
  | _ => none

theorem steers_of_isSome {x : Item}
    (h : x.address?.isSome = true ∨ x.onZero?.isSome = true ∨ x.always?.isSome = true) :
    x.steers = true := by
  cases x with
  | label l => rfl
  | inst i =>
    cases i with
    | jmp l | jumpZero l | jumpNotSign l | jumpAbove l => rfl
    | _ => rcases h with h | h | h <;> cases h
  | _ => rcases h with h | h | h <;> cases h

end Item

/-- Whether the instruction `i` at address `a` closes something and does not just go on. -/
def Returns (a : Nat) (i : Instr) : Prop := i.op = .close ∧ i.imm ≠ Int64.ofNat (a + 1)

instance : Decidable (Returns a i) := inferInstanceAs (Decidable (_ ∧ _))

/-- The jump that the instruction `i` at address `a` is compiled to, if it is to one. -/
def jump? (a : Nat) (i : Instr) : Option Inst :=
  if i.op = .branch ∨ i.op = .body then some (.jumpZero (.addr i.imm.toInt.toNat))
  else if i.op = .otherwise ∨ Returns a i then some (.jmp (.addr i.imm.toInt.toNat))
  else none

theorem jump?_close (hop : i.op = .close) :
    jump? a i = if i.imm = Int64.ofNat (a + 1) then none
      else some (.jmp (.addr i.imm.toInt.toNat)) := by
  simp only [jump?, Returns, hop, reduceCtorEq, or_self, if_false, true_and, false_or, ne_eq,
    ite_not]

/-- The label of the instruction `i` at address `a` and its jump. -/
def flow (a : Nat) (i : Instr) : List Item :=
  .label (.addr a) :: ((jump? a i).map .inst).toList

theorem filter_code (h : code a n i = .ok insts) :
    (insts.map .inst).filter Item.steers = ((jump? a i).map .inst).toList := by
  obtain ⟨hdef, hjump⟩ := translatable_of_code h
  obtain ⟨op, imm⟩ := i
  cases op with
  | undefined k => cases hdef
  | push =>
    cases h
    split <;> rfl
  | branch =>
    cases h.symm.trans (code_condition (.inl rfl) (hjump rfl))
    rfl
  | body =>
    cases h.symm.trans (code_condition (.inr rfl) (hjump rfl))
    rfl
  | otherwise =>
    cases h.symm.trans (code_otherwise rfl (hjump rfl))
    rfl
  | close =>
    cases h.symm.trans (code_close rfl (hjump rfl))
    rw [jump?_close rfl]
    split <;> rfl
  | _ =>
    cases h
    rfl

theorem exists_of_jump? {x : Inst} (h : jump? a i = some x) :
    i.op.isJump = true ∧
      (x = .jumpZero (.addr i.imm.toInt.toNat) ∨ x = .jmp (.addr i.imm.toInt.toNat)) := by
  rw [jump?] at h
  split at h
  · rename_i hop
    cases h
    exact ⟨Machine.isJump_of_condition hop, .inl rfl⟩
  · split at h
    · rename_i hop
      cases h
      exact ⟨Machine.isJump_of_jump (hop.imp_right And.left), .inr rfl⟩
    · cases h

theorem flow_target_le {x : Item} {z : Nat} (hi : Translatable n i) (hx : x ∈ flow a i)
    (hz : x.onZero? = some z ∨ x.always? = some z) : z ≤ n := by
  rw [flow, List.mem_cons, Option.mem_toList, Option.map_eq_some_iff] at hx
  rcases hx with rfl | ⟨j, hj, rfl⟩
  · rcases hz with hz | hz <;> cases hz
  · obtain ⟨hjump, hj⟩ := exists_of_jump? hj
    have hle := (hi.2 hjump).2
    rcases hj with rfl | rfl <;> rcases hz with hz | hz <;> cases hz <;> omega

/-- The labels and jumps of compiled code, address by address. -/
theorem filter_compileFrom (h : ∀ i ∈ l, Translatable n i) :
    (compileFrom a n l).items.filter Item.steers
      = (l.zipIdx a).flatMap (fun x => flow x.2 x.1) ++ [.label (.addr n)] := by
  induction l generalizing a with
  | nil => rfl
  | cons i l ih =>
    obtain ⟨hi, hl⟩ := List.forall_mem_cons.1 h
    obtain ⟨insts, hcode⟩ := exists_code (a := a) hi
    have hpiece : (piece a i insts).filter Item.steers = flow a i := by
      rw [piece, List.filter_cons_of_pos rfl, List.filter_cons_of_neg Bool.false_ne_true,
        filter_code hcode]
      rfl
    rw [compileFrom_cons hcode, List.filter_append, hpiece, ih hl, List.zipIdx_cons,
      List.flatMap_cons, List.append_assoc]

/-- What is only seen in labels and jumps is seen in the labels and jumps alone. -/
theorem filterMap_steers {f : Item → Option Nat} (hf : ∀ x, (f x).isSome = true → x.steers = true)
    (xs : List Item) : (xs.filter Item.steers).filterMap f = xs.filterMap f := by
  have hview : (fun x => if x.steers = true then f x else none) = f := by
    funext x
    cases hx : f x with
    | none => exact ite_self none
    | some z => exact if_pos (hf x (by rw [hx]; rfl))
  rw [List.filterMap_filter, hview]

theorem filterMap_address? : (flow a i).filterMap Item.address? = [a] := by
  rw [flow, jump?]
  split
  · rfl
  · split <;> rfl

theorem filterMap_onZero? :
    (flow a i).filterMap Item.onZero? =
      if i.op = .branch ∨ i.op = .body then [i.imm.toInt.toNat] else [] := by
  rw [flow, jump?]
  split
  · rfl
  · split <;> rfl

theorem filterMap_always? :
    (flow a i).filterMap Item.always? =
      if i.op = .otherwise ∨ Returns a i then [i.imm.toInt.toNat] else [] := by
  rw [flow, jump?]
  split
  · rename_i hop
    rw [if_neg]
    · rfl
    · rcases hop with hop | hop <;> simp [Returns, hop]
  · split <;> rfl

theorem filterMap_compileFrom {f : Item → Option Nat}
    (hf : ∀ x, (f x).isSome = true → x.steers = true) (h : ∀ i ∈ l, Translatable n i) :
    (compileFrom a n l).items.filterMap f
      = ((l.zipIdx a).flatMap fun x => (flow x.2 x.1).filterMap f) ++
        [.label (.addr n)].filterMap f := by
  rw [← filterMap_steers hf, filter_compileFrom h, List.filterMap_append, List.filterMap_flatMap]

theorem addresses_compileFrom (hn : a + l.length = n) (h : ∀ i ∈ l, Translatable n i) :
    (compileFrom a n l).items.filterMap Item.address? = List.range' a (l.length + 1) := by
  have hone (x : Instr × Nat) : (flow x.2 x.1).filterMap Item.address? = [x.2] := filterMap_address?
  rw [filterMap_compileFrom (fun x hx => Item.steers_of_isSome (.inl hx)) h]
  simp only [hone]
  rw [← List.map_eq_flatMap, List.zipIdx_map_snd, List.range'_1_concat, hn]
  rfl

/-- There are as many jumps on zero as conditions. -/
theorem length_onZero? (l : List Instr) (a : Nat) :
    ((l.zipIdx a).flatMap fun x => (flow x.2 x.1).filterMap Item.onZero?).length
      = (l.map Instr.op).count .branch + (l.map Instr.op).count .body := by
  induction l generalizing a with
  | nil => rfl
  | cons i l ih =>
    rw [List.zipIdx_cons, List.flatMap_cons, List.length_append, ih, filterMap_onZero?,
      List.map_cons, List.count_cons, List.count_cons]
    cases i.op <;> simp <;> omega

/-- Of the other jumps, one comes from each `ELSE`, and the rest go back. -/
theorem length_always? (l : List Instr) (a : Nat) :
    ((l.zipIdx a).flatMap fun x => (flow x.2 x.1).filterMap Item.always?).length
      = (l.map Instr.op).count .otherwise + (l.zipIdx a).countP fun x => Returns x.2 x.1 := by
  induction l generalizing a with
  | nil => rfl
  | cons i l ih =>
    rw [List.zipIdx_cons, List.flatMap_cons, List.length_append, ih, filterMap_always?,
      List.map_cons, List.count_cons, List.countP_cons]
    by_cases hop : i.op = .otherwise
    · simp [hop, Returns]
      omega
    · by_cases hr : Returns a i <;> simp [hop, hr]
      omega

/-! ## Closing words of a linked program -/

section Linked

variable {words : Array Instr} {b : Block} {op : Op} {z : Nat}

theorem eq_ofNat_iff {x : Int64} (hz : z < 0x8000000000000000) :
    x = Int64.ofNat z ↔ x.toInt = z := by
  rw [← Int64.toInt_inj, Int64.toInt_ofNat_of_lt hz]

/-- Whether the word at address `a` closes something and does not just go on. -/
def returnsAt (words : Array Instr) (a : Nat) : Bool := words[a]?.any fun i => Returns a i

theorem returnsAt_of_opAt (h : OpAt words a op) (hop : op ≠ .close) :
    returnsAt words a = false := by
  obtain ⟨i, hi, rfl⟩ := h.exists_instr
  simp [returnsAt, hi, Returns, hop]

theorem returns_iff (h : GoesTo words a .close z) (hsize : words.size < 0x8000000000000000)
    (hi : words[a]? = some i) : Returns a i ↔ z ≠ a + 1 := by
  obtain ⟨j, hj, hop, himm⟩ := id h
  cases hi.symm.trans hj
  have ha := h.opAt.lt_size
  rw [Returns, Ne, eq_ofNat_iff (by omega), himm]
  simp only [hop, true_and]
  omega

theorem returnsAt_of_goesTo (h : GoesTo words a .close z)
    (hsize : words.size < 0x8000000000000000) :
    returnsAt words a = decide (z ≠ a + 1) := by
  obtain ⟨i, hi, -⟩ := id h
  rw [returnsAt, hi, Option.any_some]
  exact decide_eq_decide.2 (returns_iff h hsize hi)

/-- In a block as many closing words go back as there are loops. -/
theorem count_returnsAt (hsize : words.size < 0x8000000000000000)
    (hops : Aligned (OpAt words) a b.ops) (hc : ∀ x ∈ b.constructs a, x.Stands words) :
    ((b.ops.zipIdx a).countP fun x => returnsAt words x.2) = b.ops.count .loop := by
  induction b generalizing a with
  | nil => rfl
  | plain i rest ih =>
    obtain ⟨hi, hrest⟩ := hops
    have hplain := i.isPlain
    have hclose : i.instr.op ≠ .close := fun h => by rw [h] at hplain; cases hplain
    have hloop : i.instr.op ≠ .loop := fun h => by rw [h] at hplain; cases hplain
    rw [Block.ops, List.zipIdx_cons, List.countP_cons, ih hrest hc, List.count_cons_of_ne hloop,
      returnsAt_of_opAt hi hclose]
    rfl
  | when yes rest ihy ih =>
    simp only [Block.ops, List.cons_append, aligned_cons, aligned_append, Block.length_ops] at hops
    simp only [Block.constructs, List.cons_append, List.forall_mem_cons,
      List.forall_mem_append] at hc
    obtain ⟨hi, hyes, -, hrest⟩ := hops
    obtain ⟨⟨-, -, hz⟩, hcyes, hcrest⟩ := hc
    simp only [Block.ops, List.cons_append, List.zipIdx_cons, List.zipIdx_append, List.countP_cons,
      List.countP_append, List.count_cons, List.count_append, Block.length_ops]
    rw [ihy hyes hcyes, ih hrest hcrest, returnsAt_of_opAt hi (by decide),
      returnsAt_of_goesTo hz hsize]
    simp
  | choice yes no rest ihy ihn ih =>
    simp only [Block.ops, List.cons_append, List.append_assoc, aligned_cons, aligned_append,
      Block.length_ops] at hops
    simp only [Block.constructs, List.cons_append, List.append_assoc, List.forall_mem_cons,
      List.forall_mem_append] at hc
    obtain ⟨hi, hyes, he, hno, -, hrest⟩ := hops
    obtain ⟨⟨-, -, -, -, hz⟩, hcyes, hcno, hcrest⟩ := hc
    simp only [Block.ops, List.cons_append, List.append_assoc, List.zipIdx_cons, List.zipIdx_append,
      List.countP_cons, List.countP_append, List.count_cons, List.count_append, Block.length_ops]
    rw [ihy hyes hcyes, ihn hno hcno, ih hrest hcrest, returnsAt_of_opAt hi (by decide),
      returnsAt_of_opAt he (by decide), returnsAt_of_goesTo hz hsize]
    simp
  | loop condition body rest ihc ihb ih =>
    simp only [Block.ops, List.cons_append, List.append_assoc, aligned_cons, aligned_append,
      Block.length_ops] at hops
    simp only [Block.constructs, List.cons_append, List.append_assoc, List.forall_mem_cons,
      List.forall_mem_append] at hc
    obtain ⟨hw, hcond, hd, hbody, -, hrest⟩ := hops
    obtain ⟨⟨hwd, hdz, -, -, hz⟩, hccond, hcbody, hcrest⟩ := hc
    have hback : a ≠ a + 1 + condition.size + 1 + body.size + 1 := by omega
    simp only [Block.ops, List.cons_append, List.append_assoc, List.zipIdx_cons, List.zipIdx_append,
      List.countP_cons, List.countP_append, List.count_cons, List.count_append, Block.length_ops]
    rw [ihc hcond hccond, ihb hbody hcbody, ih hrest hcrest, returnsAt_of_opAt hw (by decide),
      returnsAt_of_opAt hd (by decide), returnsAt_of_goesTo hz hsize, decide_eq_true hback]
    simp
    omega

theorem count_returns (hsize : p.size < 0x8000000000000000) (h : p.StandsAs b) :
    (p.code.toList.zipIdx.countP fun x => Returns x.2 x.1) = p.ops.count .loop := by
  have hops : Aligned (OpAt p.code) 0 b.ops := by
    refine aligned_iff.2 fun k op hk => ?_
    rw [Nat.zero_add, Program.opAt_iff, h.1, hk]
  have hat : ∀ x ∈ p.code.toList.zipIdx,
      decide (Returns x.2 x.1) = true ↔ returnsAt p.code x.2 = true := by
    intro x hx
    rw [List.mem_zipIdx_iff_getElem?, Array.getElem?_toList] at hx
    rw [returnsAt, hx, Option.any_some]
  have hcount := count_returnsAt hsize hops h.2
  rw [← h.1, Program.ops, List.zipIdx_map, List.countP_map] at hcount
  rw [List.countP_congr hat]
  exact hcount

end Linked

/-! ## Lines -/

/-- The lines of a text, as texts. -/
def textLines (t : String) : List String := (lines t.toList).map String.ofList

/-- Whether a line reads as a label or a jump. -/
def lineSteers (line : String) : Bool := (Item.read? line.toList).any Item.steers

/-- The line of the label of an address. -/
def labelLine (a : Nat) : String := "addr_" ++ toString a ++ ":"

/-- The line of the jump that the instruction `i` at address `a` is compiled to, if it is to one. -/
def jumpLine? (a : Nat) (i : Instr) : Option String :=
  if i.op = .branch ∨ i.op = .body then some ("    jz addr_" ++ toString i.imm)
  else if i.op = .otherwise ∨ Returns a i then some ("    jmp addr_" ++ toString i.imm)
  else none

/-- The lines of the label and of the jump of each instruction, and of the label of the end. -/
def flowLines (p : Program) : List String :=
  (p.code.toList.zipIdx.flatMap fun x => labelLine x.2 :: (jumpLine? x.2 x.1).toList) ++
    [labelLine p.size]

/-- The lines of the labels and jumps in front of the code of a program. -/
def routineLines : List String :=
  ["dump:", "    jns     .L2", ".L2:", "    ja      .L2", "    jns     .L3", ".L3:", "_start:"]

theorem filter_lineSteers {tab : Nat} {xs : List Item} (h : ∀ x ∈ xs, Legible tab x) :
    (xs.map (Item.text tab)).filter lineSteers = (xs.filter Item.steers).map (Item.text tab) := by
  rw [List.filter_map]
  refine congrArg _ (List.filter_congr fun x hx => ?_)
  rw [Function.comp_apply, lineSteers, (h x hx).2, Option.any_some]

theorem text_inst {x : Inst} {w : String} (h : x.operands = [w]) :
    (Item.inst x).text 0 = "    " ++ (x.mnemonic ++ " ") ++ w := by
  have hpad : Item.padded (x.mnemonic ++ " ") 0 = x.mnemonic ++ " " := by simp [Item.padded]
  simp only [Item.text, h, hpad, String.intercalate_singleton]

theorem text_addr {x : Int64} (hx : 0 ≤ x.toInt) (s : String) :
    s ++ (Label.addr x.toInt.toNat).text = s ++ "addr_" ++ toString x := by
  rw [Label.text, addrLabel, Int.toNat_of_nonneg hx, String.append_assoc]
  rfl

theorem text_jump? (hi : Translatable n i) :
    (jump? a i).map (fun x => (Item.inst x).text 0) = jumpLine? a i := by
  have hjz : "    " ++ ("jz" ++ " ") ++ "addr_" = "    jz addr_" := rfl
  have hjmp : "    " ++ ("jmp" ++ " ") ++ "addr_" = "    jmp addr_" := rfl
  rw [jump?, jumpLine?]
  split
  · rename_i hop
    have hjump := Machine.isJump_of_condition hop
    rw [Option.map_some, text_inst rfl, text_addr (hi.2 hjump).1]
    exact congrArg (fun s => some (s ++ toString i.imm)) hjz
  · split
    · rename_i hop
      have hjump := Machine.isJump_of_jump (hop.imp_right And.left)
      rw [Option.map_some, text_inst rfl, text_addr (hi.2 hjump).1]
      exact congrArg (fun s => some (s ++ toString i.imm)) hjmp
    · rfl

theorem text_flow (hi : Translatable n i) :
    (flow a i).map (Item.text 0) = labelLine a :: (jumpLine? a i).toList := by
  rw [flow, List.map_cons, ← text_jump? (a := a) hi]
  cases jump? a i <;> rfl

theorem textLines_text (hp : TranslatableProgram p) :
    textLines (text p) = (header ++ dumpRoutine ++ entry).map (Item.text routineTab) ++
      (compile p).items.map (Item.text 0) := by
  rw [textLines, text, preamble, String.toList_append, lines_render legible_preamble,
    ← List.append_nil (render 0 (compile p).items).toList, lines_render (legible_compile hp)]
  simp [lines, Function.comp_def]

/-- **The labels and jumps in the text of a program, line by line.** -/
theorem filter_textLines (hp : TranslatableProgram p) :
    (textLines (text p)).filter lineSteers = routineLines ++ flowLines p := by
  have hroutine : ((header ++ dumpRoutine ++ entry).filter Item.steers).map (Item.text routineTab) =
      routineLines := by decide +kernel
  have hflow : ∀ x ∈ p.code.toList.zipIdx, (flow x.2 x.1).map (Item.text 0) =
      labelLine x.2 :: (jumpLine? x.2 x.1).toList :=
    fun x hx => text_flow (hp x.1 (List.fst_mem_of_mem_zipIdx hx))
  rw [textLines_text hp, List.filter_append, filter_lineSteers legible_preamble,
    filter_lineSteers (legible_compile hp), hroutine, compile, filter_compileFrom hp,
    List.map_append, List.map_flatMap, List.flatMap_congr hflow]
  rfl

/-! ## The text of a program -/

theorem target_le {x : Item} {z : Nat} (h : ∀ i ∈ l, Translatable n i)
    (hx : x ∈ (compileFrom a n l).items) (hz : x.onZero? = some z ∨ x.always? = some z) :
    z ≤ n := by
  have hsteers : x.steers = true := by
    rcases hz with hz | hz
    · exact Item.steers_of_isSome (.inr (.inl (by rw [hz]; rfl)))
    · exact Item.steers_of_isSome (.inr (.inr (by rw [hz]; rfl)))
  have hmem : x ∈ (compileFrom a n l).items.filter Item.steers := List.mem_filter.2 ⟨hx, hsteers⟩
  rw [filter_compileFrom h, List.mem_append, List.mem_flatMap] at hmem
  rcases hmem with ⟨y, hy, hx⟩ | hx
  · exact flow_target_le (h y.1 (List.fst_mem_of_mem_zipIdx hy)) hx hz
  · rw [List.mem_singleton.1 hx] at hz
    rcases hz with hz | hz <;> cases hz

theorem exists_compileFrom (hn : a + l.length = n) :
    ∃ rest, (compileFrom a n l).items = .label (.addr a) :: rest := by
  cases l with
  | nil =>
    cases hn
    exact ⟨_, rfl⟩
  | cons i l =>
    rw [compileFrom]
    split <;> exact ⟨_, rfl⟩

theorem no_target_preamble :
    ∀ x ∈ header ++ dumpRoutine ++ entry, x.onZero? = none ∧ x.always? = none := by
  decide

theorem addresses_items (hp : TranslatableProgram p) :
    (items p).filterMap Item.address? = List.range (p.size + 1) := by
  rw [items, List.filterMap_append, compile, addresses_compileFrom (zero_add_size p) hp,
    List.range_eq_range']
  rfl

theorem length_onZero?_items (hp : TranslatableProgram p) :
    ((items p).filterMap Item.onZero?).length = p.ops.count .branch + p.ops.count .body := by
  have hfront : (header ++ dumpRoutine ++ entry).filterMap Item.onZero? = [] := rfl
  rw [items, List.filterMap_append, hfront, compile,
    filterMap_compileFrom (fun x hx => Item.steers_of_isSome (.inr (.inl hx))) hp, List.nil_append,
    List.length_append, length_onZero?]
  rfl

theorem length_always?_items (hp : TranslatableProgram p) :
    ((items p).filterMap Item.always?).length =
      p.ops.count .otherwise + p.code.toList.zipIdx.countP fun x => Returns x.2 x.1 := by
  have hfront : (header ++ dumpRoutine ++ entry).filterMap Item.always? = [] := rfl
  rw [items, List.filterMap_append, hfront, compile,
    filterMap_compileFrom (fun x hx => Item.steers_of_isSome (.inr (.inr hx))) hp, List.nil_append,
    List.length_append, length_always?]
  rfl

/-- A closing word of a program whose constructs stand has a jump unless it closes a choice. -/
theorem jumpLine?_eq_none_iff {b : Block} {c : Construct} (hsize : p.size < 0x8000000000000000)
    (h : p.StandsAs b) (hc : c ∈ b.constructs 0) (ha : (a, .close) ∈ c.words)
    (hi : p.code[a]? = some i) (hop : i.op = .close) :
    jumpLine? a i = none ↔ ∃ x, (x, .branch) ∈ c.words := by
  have hnone : jumpLine? a i = none ↔ ¬ Returns a i := by
    simp [jumpLine?, hop]
  have hstands := h.2 c hc
  rw [hnone]
  cases c with
  | when x z =>
    obtain ⟨-, -, hz⟩ := hstands
    obtain rfl : a = z := by simpa using ha
    rw [returns_iff hz hsize hi]
    simp
  | choice x e z =>
    obtain ⟨-, -, -, -, hz⟩ := hstands
    obtain rfl : a = z := by simpa using ha
    rw [returns_iff hz hsize hi]
    simp
  | loop w d z =>
    obtain ⟨hwd, hdz, -, -, hz⟩ := hstands
    obtain rfl : a = z := by simpa using ha
    rw [returns_iff hz hsize hi]
    simp
    omega

/-- **The labels and jumps of a text are those of the program.**  The text of a program can be read
line by line.  Behind the lines of the routine, those that are a label or a jump are the label of
each address, in order, each with the jump of its instruction if that has one, and the label of the
end.  A jump to an address stands behind the label of the first one and goes to one of these labels.

In the text of a program that has been linked, there is a jump on zero for each `IF` and each `DO`,
and another jump for each `ELSE` and each `WHILE`: a closing word has no jump just if it belongs to
an `IF`. -/
theorem emitted_jumps {t : String} (h : emit p (Sink.buffer "") = (.buffer t, none)) :
    (textLines t).filter lineSteers = routineLines ++ flowLines p ∧
    ∃ its, readText? t = some its ∧
      its.filterMap Item.address? = List.range (p.size + 1) ∧
      (∃ pre post, its = pre ++ .label (.addr 0) :: post ∧
        (∀ x ∈ pre, x.onZero? = none ∧ x.always? = none) ∧
        ∀ x ∈ post, ∀ z, x.onZero? = some z ∨ x.always? = some z → z ≤ p.size) ∧
      ∀ q : Program, q.link = (p, none) → p.size < 0x8000000000000000 →
        (its.filterMap Item.onZero?).length = p.ops.count .branch + p.ops.count .body ∧
        (its.filterMap Item.always?).length = p.ops.count .otherwise + p.ops.count .loop ∧
        ∃ b : Block, p.ops = b.ops ∧ ∀ a i, p.code[a]? = some i → i.op = .close →
          (∃ c ∈ b.constructs 0, (a, .close) ∈ c.words) ∧
          ∀ c ∈ b.constructs 0, (a, .close) ∈ c.words →
            (jumpLine? a i = none ↔ ∃ x, (x, .branch) ∈ c.words) := by
  obtain ⟨-, hp, rfl⟩ := eq_text_of_emit h
  refine ⟨filter_textLines hp, items p, readText?_text hp, addresses_items hp, ?_, ?_⟩
  · obtain ⟨rest, hrest⟩ := exists_compileFrom (zero_add_size p)
    have hitems : items p = (header ++ dumpRoutine ++ entry) ++ .label (.addr 0) :: rest := by
      rw [items, compile, hrest]
    refine ⟨_, rest, hitems, no_target_preamble, fun x hx z hz => ?_⟩
    exact target_le (a := 0) hp (by rw [hrest]; exact List.mem_cons_of_mem _ hx) hz
  · intro q hq hsize
    obtain ⟨b, hb⟩ := Program.standsAs_of_link hsize hq
    refine ⟨length_onZero?_items hp, ?_, b, hb.1, fun a i hi hop => ⟨?_, fun c hc ha => ?_⟩⟩
    · rw [length_always?_items hp, count_returns hsize hb]
    · have hat : OpAt p.code a .close := hop ▸ Lint.opAt_of_getElem? hi
      obtain ⟨c, hc, hmem, -⟩ := hb.exists_construct hat rfl
      exact ⟨c, hc, hmem⟩
    · exact jumpLine?_eq_none_iff hsize hb hc ha hi hop

/-- `IF 7 ELSE WHILE TRUE DO DUMP END END`: of the two closing words only that of the loop jumps. -/
theorem emitted_jumps_nested :
    let q : Program :=
      { code := #[⟨.branch, 0⟩, ⟨.push, 7⟩, ⟨.otherwise, 0⟩, ⟨.loop, 0⟩, ⟨.pushTrue, 0⟩,
          ⟨.body, 0⟩, ⟨.dump, 0⟩, ⟨.close, 0⟩, ⟨.close, 0⟩] }
    ∃ (p : Program) (t : String), q.link = (p, none) ∧ p.size < 0x8000000000000000 ∧
      emit p (Sink.buffer "") = (.buffer t, none) ∧
      (textLines t).filter lineSteers = routineLines ++
        ["addr_0:", "    jz addr_3", "addr_1:", "addr_2:", "    jmp addr_8", "addr_3:", "addr_4:",
          "addr_5:", "    jz addr_8", "addr_6:", "addr_7:", "    jmp addr_3", "addr_8:",
          "addr_9:"] ∧
      ∃ its, readText? t = some its ∧ (its.filterMap Item.onZero?).length = 2 ∧
        (its.filterMap Item.always?).length = 2 := by
  intro q
  let p : Program :=
    { code := #[⟨.branch, 3⟩, ⟨.push, 7⟩, ⟨.otherwise, 8⟩, ⟨.loop, 0⟩, ⟨.pushTrue, 0⟩,
        ⟨.body, 8⟩, ⟨.dump, 0⟩, ⟨.close, 3⟩, ⟨.close, 9⟩], linked := true }
  have hlink : q.link = (p, none) := by decide +kernel
  have hsize : p.size < 0x8000000000000000 := by decide
  have hemit : emit p (Sink.buffer "") = (.buffer (text p), none) := emit_eq rfl (by decide)
  obtain ⟨hlines, its, hits, -, -, hcounts⟩ := emitted_jumps hemit
  obtain ⟨hzero, hjump, -⟩ := hcounts q hlink hsize
  have hflow : flowLines p = ["addr_0:", "    jz addr_3", "addr_1:", "addr_2:", "    jmp addr_8",
      "addr_3:", "addr_4:", "addr_5:", "    jz addr_8", "addr_6:", "addr_7:", "    jmp addr_3",
      "addr_8:", "addr_9:"] := by
    decide +kernel
  exact ⟨p, _, hlink, hsize, hemit, hflow ▸ hlines, its, hits, hzero, hjump⟩

end StackLang.Assembly

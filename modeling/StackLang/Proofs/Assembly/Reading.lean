import StackLang.Assembly.Native
import StackLang.Proofs.Assembly.Layout
import StackLang.Proofs.Literal
import StackLang.Text.Space

/-!
# Reading assembly

An assembler's view of a text: lines, and in a line a label, a comment, a directive or an
instruction with its operands.  The tables of names and mnemonics here are those of the processor
and owe nothing to the ones that texts are written with.

`readText?_text` says that the text of a program reads as the items it was made from, so that what
is shown of the items of a program holds of its text.  A line is read back from its mnemonic and its
operands, whatever registers, labels and numbers these are (`legible_of_checked`); only titles,
directives and places are checked one by one.
-/

set_option autoImplicit false

namespace StackLang.Assembly

/-! ## The reader -/

/-- The lines of a text.  A line feed ends a line. -/
def lines : List Char → List (List Char)
  | [] => []
  | c :: cs =>
    if c = '\n' then [] :: lines cs
    else
      match lines cs with
      | [] => [[c]]
      | line :: more => (c :: line) :: more

/-- The words of a line: what stands between blanks and commas. -/
def lineWords (line : List Char) : List (List Char) :=
  Text.fieldsFrom [] (line.map fun c => if c = ',' then ' ' else c)

/-- What a word after a mnemonic stands for. -/
inductive Operand where
  | imm (n : Int64)
  | label (l : Label)
  | reg (r : Reg)
  /-- The lower half of a register. -/
  | half (r : Reg)
  /-- The lowest byte of `rax`. -/
  | lowest
  | place (p : Place)
  /-- A mark that the operand after it is one byte wide. -/
  | byte
  deriving DecidableEq, Repr

/-- The register with this name. -/
def Reg.read? : String → Option Reg
  | "rax" => some .rax
  | "rbx" => some .rbx
  | "rcx" => some .rcx
  | "rdx" => some .rdx
  | "rsi" => some .rsi
  | "rdi" => some .rdi
  | "rsp" => some .rsp
  | "r8" => some .r8
  | "r9" => some .r9
  | "r10" => some .r10
  | _ => none

/-- The label with this name. -/
def Label.read? : List Char → Option Label
  | 'a' :: 'd' :: 'd' :: 'r' :: '_' :: ds => (Literal.unsigned? ds).map .addr
  | word =>
    match String.ofList word with
    | "dump" => some .dump
    | ".L2" => some .digits
    | ".L3" => some .write
    | "_start" => some .start
    | "mem" => some .memory
    | _ => none

/-- Add a signed term, a number or a register with an optional scale, to a place. -/
def Place.add? (p : Place) (term : List Char) : Option Place :=
  match Literal.read? term with
  | some n => some { p with disp := p.disp + n.toInt }
  | none =>
    match term with
    | '+' :: word =>
      let scale := (word.dropWhile (· ≠ '*')).drop 1
      (Reg.read? (String.ofList (word.takeWhile (· ≠ '*')))).bind fun r =>
        if scale.isEmpty then some { p with index := some (r, 1) }
        else (Literal.unsigned? scale).map fun n => { p with index := some (r, n) }
    | _ => none

/-- The place that a sum of terms between brackets stands for. -/
def Place.read? (word : List Char) : Option Place :=
  if word.head? = some '[' ∧ word.getLast? = some ']' then
    let spaced := word.tail.dropLast.flatMap fun c => if c = '+' ∨ c = '-' then [' ', c] else [c]
    match Text.fieldsFrom [] spaced with
    | [] => none
    | base :: terms =>
      (Reg.read? (String.ofList base)).bind fun r => terms.foldlM Place.add? { base := r }
  else none

/-- The operand that a word stands for. -/
def Operand.read? (word : List Char) : Option Operand :=
  match Literal.read? word with
  | some n => some (.imm n)
  | none =>
    match Label.read? word with
    | some l => some (.label l)
    | none =>
      match String.ofList word with
      | "edi" => some (.half .rdi)
      | "eax" => some (.half .rax)
      | "al" => some .lowest
      | "BYTE" => some .byte
      | name =>
        match Reg.read? name with
        | some r => some (.reg r)
        | none => (Place.read? word).map .place

/-- The instruction with this mnemonic and these operands. -/
def Inst.ofOperands? : String → List Operand → Option Inst
  | "push", [.imm n] => some (.pushImm n)
  | "push", [.reg r] => some (.push r)
  | "push", [.label l] => some (.pushLabel l)
  | "pop", [.reg r] => some (.pop r)
  | "mov", [.reg d, .imm n] => some (.movImm d n)
  | "mov", [.reg d, .reg s] => some (.mov d s)
  | "mov", [.half .rdi, .imm n] => some (.movLowImm n)
  | "mov", [.byte, .place p, .imm n] => some (.storeImm p n.toInt.toNat)
  | "mov", [.byte, .place p, .lowest] => some (.storeByte p)
  | "lea", [.reg d, .place p] => some (.lea d p)
  | "add", [.reg d, .reg s] => some (.add d s)
  | "add", [.reg d, .imm n] => some (.addImm d n)
  | "add", [.half .rax, .imm n] => some (.addLowImm n)
  | "sub", [.reg d, .reg s] => some (.sub d s)
  | "sub", [.reg d, .imm n] => some (.subImm d n)
  | "neg", [.reg d] => some (.neg d)
  | "mul", [.reg s] => some (.mul s)
  | "shr", [.reg d, .imm n] => some (.shrImm d n.toInt.toNat)
  | "cmp", [.reg a, .reg b] => some (.cmp a b)
  | "cmp", [.reg a, .imm n] => some (.cmpImm a n)
  | "test", [.reg a, .reg b] => some (.test a b)
  | "cmove", [.reg d, .reg s] => some (.moveEqual d s)
  | "cmovg", [.reg d, .reg s] => some (.moveGreater d s)
  | "jmp", [.label l] => some (.jmp l)
  | "jz", [.label l] => some (.jumpZero l)
  | "jns", [.label l] => some (.jumpNotSign l)
  | "ja", [.label l] => some (.jumpAbove l)
  | "call", [.label l] => some (.call l)
  | "ret", [] => some .ret
  | "syscall", [] => some .syscall
  | _, _ => none

/-- The words that directives begin with. -/
def directiveWords : List String := ["bits", "segment", "global", "mem:"]

/-- What stands in front of the title of a comment, and behind it. -/
def headingRules : List Char × List Char := ("    ;; ----- ".toList, " ----- ;;".toList)

/-- The title of a comment between its rules. -/
def headingTitle (line : List Char) : String :=
  let title := line.drop headingRules.1.length
  String.ofList (title.take (title.length - headingRules.2.length))

/-- The item that a line stands for. -/
def Item.read? (line : List Char) : Option Item :=
  match lineWords line with
  | [] => some .blank
  | word :: rest =>
    if rest.isEmpty ∧ word.getLast? = some ':' then (Label.read? word.dropLast).map .label
    else if String.ofList word = ";;" then some (.heading (headingTitle line))
    else if String.ofList word ∈ directiveWords then some (.directive (String.ofList line))
    else
      (rest.mapM Operand.read?).bind fun operands =>
        (Inst.ofOperands? (String.ofList word) operands).map .inst

/-- The items that a text stands for, if every line stands for one. -/
def readText? (text : String) : Option (List Item) := (lines text.toList).mapM Item.read?

/-! ## Words -/

variable {w cs : List Char}

theorem fieldsFrom_append {c : Char} (hc : Text.isSpace c = true) (acc w cs : List Char) :
    Text.fieldsFrom acc (w ++ c :: cs) = Text.fieldsFrom acc w ++ Text.fieldsFrom [] cs := by
  induction w generalizing acc with
  | nil =>
    simp only [List.nil_append, Text.fieldsFrom, if_pos hc]
    split <;> rfl
  | cons x w ih =>
    rw [List.cons_append, Text.fieldsFrom, Text.fieldsFrom]
    split
    · split
      · exact ih []
      · rw [ih [], List.cons_append]
    · exact ih (x :: acc)

/-- A blank or a comma separates words. -/
theorem lineWords_append {c : Char} (hc : c = ' ' ∨ c = ',') (w cs : List Char) :
    lineWords (w ++ c :: cs) = lineWords w ++ lineWords cs := by
  rw [lineWords, List.map_append, List.map_cons]
  rcases hc with rfl | rfl <;> exact fieldsFrom_append rfl [] _ _

theorem lineWords_blank (cs : List Char) : lineWords (' ' :: cs) = lineWords cs :=
  lineWords_append (.inl rfl) [] cs

theorem lineWords_replicate (n : Nat) (cs : List Char) :
    lineWords (List.replicate n ' ' ++ cs) = lineWords cs := by
  induction n with
  | zero => rfl
  | succ n ih => rw [List.replicate_succ, List.cons_append, lineWords_blank, ih]

theorem lineWords_intercalate (ws : List (List Char)) :
    lineWords ([',', ' '].intercalate ws) = ws.flatMap lineWords := by
  induction ws with
  | nil => rfl
  | cons w ws ih =>
    cases ws with
    | nil => simp
    | cons v ws =>
      rw [List.intercalate_cons_cons, List.append_assoc, List.cons_append,
        lineWords_append (.inr rfl), List.cons_append, List.nil_append, lineWords_blank, ih]
      rfl

/-- A character that is part of a word. -/
def isWordChar (c : Char) : Bool := !Text.isSpace c && c != ','

/-- One word, whatever it stands for. -/
def Solid (w : List Char) : Prop := w ≠ [] ∧ w.all isWordChar = true

instance (w : List Char) : Decidable (Solid w) := inferInstanceAs (Decidable (_ ∧ _))

theorem Solid.spec {c : Char} (h : Solid w) (hc : c ∈ w) : Text.isSpace c = false ∧ c ≠ ',' := by
  simpa [isWordChar] using List.all_eq_true.1 h.2 c hc

theorem fieldsFrom_solid (acc : List Char) (h : ∀ c ∈ w, Text.isSpace c = false) (hne : w ≠ []) :
    Text.fieldsFrom acc w = [acc.reverse ++ w] := by
  induction w generalizing acc with
  | nil => exact absurd rfl hne
  | cons c w ih =>
    rw [Text.fieldsFrom, h c List.mem_cons_self]
    cases w with
    | nil => simp [Text.fieldsFrom]
    | cons d w =>
      have hrest := ih (c :: acc) (fun x hx => h x (List.mem_cons_of_mem c hx)) (by simp)
      simpa using hrest

theorem lineWords_solid (h : Solid w) : lineWords w = [w] := by
  have hmap : (w.map fun c => if c = ',' then ' ' else c) = w :=
    (List.map_congr_left fun c hc => if_neg (h.spec hc).2).trans (List.map_id' w)
  rw [lineWords, hmap, fieldsFrom_solid [] (fun c hc => (h.spec hc).1) h.1]
  rfl

theorem Solid.not_mem (h : Solid w) : '\n' ∉ w := fun hmem => by
  have hspace := (h.spec hmem).1
  cases hspace

theorem Solid.append {v : List Char} (hv : Solid v) (hw : w.all isWordChar = true) :
    Solid (v ++ w) := by
  refine ⟨fun h => hv.1 (List.append_eq_nil_iff.1 h).1, ?_⟩
  rw [List.all_append, hv.2, hw]
  rfl

/-! ## Operands -/

/-- A text that reads as these operands. -/
def Reads (text : String) (os : List Operand) : Prop :=
  '\n' ∉ text.toList ∧ (lineWords text.toList).mapM Operand.read? = some os

theorem reads_solid {text : String} {o : Operand} (h : Solid text.toList)
    (ho : Operand.read? text.toList = some o) : Reads text [o] := by
  refine ⟨h.not_mem, ?_⟩
  rw [lineWords_solid h, List.mapM_cons, ho]
  rfl

theorem isWordChar_of_isDigit {c : Char} (h : Literal.isDigit c = true) :
    isWordChar c = true := by
  have hspace := Literal.isSpace_of_isDigit h
  have hcomma : c ≠ ',' := by
    rintro rfl
    revert h
    decide
  simp [isWordChar, hspace, hcomma]

theorem solid_toString (x : Int64) : Solid (toString x).toList := by
  refine ⟨Literal.toList_toString_ne_nil x, List.all_eq_true.2 fun c hc => ?_⟩
  rcases Literal.mem_toString hc with hd | rfl
  · exact isWordChar_of_isDigit hd
  · decide

theorem reads_imm (x : Int64) : Reads (toString x) [.imm x] := by
  refine reads_solid (solid_toString x) ?_
  rw [Operand.read?, Literal.read?_toString]

theorem toList_addr (n : Nat) :
    (Label.text (.addr n)).toList = "addr_".toList ++ Nat.toDigits 10 n := by
  have hnat : (toString (n : Int)).toList = Nat.toDigits 10 n := by
    rw [Literal.toList_toString_int, if_neg (by omega), Int.natAbs_natCast]
  rw [Label.text, addrLabel, String.toList_append, hnat]
  rfl

theorem solid_label (l : Label) : Solid l.text.toList := by
  cases l with
  | addr n =>
    have hstem : Solid "addr_".toList := by decide +kernel
    rw [toList_addr]
    exact hstem.append (List.all_eq_true.2 fun c hc =>
      isWordChar_of_isDigit (Literal.isDigit_of_mem_toDigits hc))
  | _ => decide +kernel

theorem read?_label (l : Label) : Label.read? l.text.toList = some l := by
  cases l with
  | addr n =>
    have hread : Label.read? ("addr_".toList ++ Nat.toDigits 10 n)
        = (Literal.unsigned? (Nat.toDigits 10 n)).map .addr := rfl
    rw [toList_addr, hread, Literal.unsigned?_toDigits]
    rfl
  | _ => decide +kernel

theorem reads_label (l : Label) : Reads l.text [.label l] := by
  have hliteral : Literal.read? l.text.toList = none := by
    cases l with
    | addr n => rw [toList_addr]; rfl
    | _ => decide +kernel
  refine reads_solid (solid_label l) ?_
  rw [Operand.read?, hliteral, read?_label]

theorem reads_reg (r : Reg) : Reads r.name [.reg r] := by
  have hr : Solid r.name.toList ∧ Operand.read? r.name.toList = some (.reg r) := by
    cases r <;> decide +kernel
  exact reads_solid hr.1 hr.2

/-- A place that can be read from its text. -/
def Place.Legible (p : Place) : Prop :=
  Solid p.text.toList ∧ Operand.read? p.text.toList = some (.place p)

instance (p : Place) : Decidable p.Legible := inferInstanceAs (Decidable (_ ∧ _))

theorem reads_byte {p : Place} (h : p.Legible) : Reads ("BYTE " ++ p.text) [.byte, .place p] := by
  have hbyte : Solid "BYTE".toList ∧ Operand.read? "BYTE".toList = some .byte := by decide +kernel
  have htext : ("BYTE " ++ p.text).toList = "BYTE".toList ++ ' ' :: p.text.toList := by simp
  refine ⟨?_, ?_⟩
  · rw [htext, List.mem_append, List.mem_cons, not_or, not_or]
    exact ⟨hbyte.1.not_mem, by decide, h.1.not_mem⟩
  · rw [htext, lineWords_append (.inl rfl), lineWords_solid hbyte.1, lineWords_solid h.1]
    rw [List.singleton_append, List.mapM_cons, hbyte.2, List.mapM_cons, h.2]
    rfl

/-- Texts that read as these operands, one after the other. -/
def ReadsAll (texts : List String) (os : List Operand) : Prop :=
  (∀ t ∈ texts, '\n' ∉ t.toList) ∧
    (texts.flatMap fun t => lineWords t.toList).mapM Operand.read? = some os

theorem readsAll_nil : ReadsAll [] [] := ⟨List.forall_mem_nil _, rfl⟩

theorem ReadsAll.cons {t : String} {ts : List String} {os os' : List Operand} (h : Reads t os)
    (hs : ReadsAll ts os') : ReadsAll (t :: ts) (os ++ os') := by
  refine ⟨List.forall_mem_cons.2 ⟨h.1, hs.1⟩, ?_⟩
  rw [List.flatMap_cons, List.mapM_append, h.2, hs.2]
  rfl

theorem readsAll_one {t : String} {os : List Operand} (h : Reads t os) : ReadsAll [t] os := by
  simpa using ReadsAll.cons h readsAll_nil

theorem readsAll_two {t t' : String} {os os' : List Operand} (h : Reads t os) (h' : Reads t' os') :
    ReadsAll [t, t'] (os ++ os') := .cons h (readsAll_one h')

/-! ## Instructions -/

/-- An item that can be read from the line it is written as. -/
def Legible (tab : Nat) (x : Item) : Prop :=
  '\n' ∉ (x.text tab).toList ∧ Item.read? (x.text tab).toList = some x

theorem toList_inst (tab : Nat) (i : Inst) :
    ∃ n, ((Item.inst i).text tab).toList
      = List.replicate 4 ' ' ++ (i.mnemonic.toList ++ if i.operands = [] then [] else ' ' ::
        (List.replicate n ' ' ++ [',', ' '].intercalate (i.operands.map String.toList))) := by
  cases hops : i.operands with
  | nil => exact ⟨0, by simp [Item.text, hops, List.replicate]⟩
  | cons w ws => exact ⟨_, by simp [Item.text, hops, Item.padded, List.replicate]; rfl⟩

/-- A mnemonic is one word, and not one that begins another kind of line. -/
theorem mnemonic_spec (i : Inst) :
    Solid i.mnemonic.toList ∧ i.mnemonic.toList.getLast? ≠ some ':' ∧
      i.mnemonic ∉ ";;" :: directiveWords := by
  have hall : ∀ m ∈ ["push", "pop", "mov", "lea", "add", "sub", "neg", "mul", "shr", "cmp", "test",
      "cmove", "cmovg", "jmp", "jz", "jns", "ja", "call", "ret", "syscall"],
      Solid m.toList ∧ m.toList.getLast? ≠ some ':' ∧ m ∉ ";;" :: directiveWords := by
    decide +kernel
  refine hall _ ?_
  cases i <;> simp [Inst.mnemonic]

theorem lineWords_inst (tab : Nat) (i : Inst) :
    lineWords ((Item.inst i).text tab).toList
      = i.mnemonic.toList :: i.operands.flatMap fun t => lineWords t.toList := by
  obtain ⟨n, htext⟩ := toList_inst tab i
  have hword := lineWords_solid (mnemonic_spec i).1
  rw [htext, lineWords_replicate]
  cases hops : i.operands with
  | nil => rw [if_pos rfl, List.append_nil, hword, List.flatMap_nil]
  | cons w ws =>
    rw [if_neg (by simp), lineWords_append (.inl rfl), hword, lineWords_replicate,
      lineWords_intercalate, List.flatMap_map]
    rfl

theorem not_mem_intercalate {ws : List (List Char)} (h : ∀ w ∈ ws, '\n' ∉ w) :
    '\n' ∉ [',', ' '].intercalate ws := by
  induction ws with
  | nil => exact List.not_mem_nil
  | cons w ws ih =>
    rw [List.forall_mem_cons] at h
    cases ws with
    | nil => simpa using h.1
    | cons v ws =>
      rw [List.intercalate_cons_cons, List.mem_append, List.mem_append, not_or, not_or]
      exact ⟨⟨h.1, by decide⟩, ih h.2⟩

theorem not_mem_inst {tab : Nat} {i : Inst} (h : ∀ t ∈ i.operands, '\n' ∉ t.toList) :
    '\n' ∉ ((Item.inst i).text tab).toList := by
  obtain ⟨n, htext⟩ := toList_inst tab i
  have hblank (k : Nat) : '\n' ∉ List.replicate k ' ' := by simp [List.mem_replicate]
  rw [htext, List.mem_append, List.mem_append, not_or, not_or]
  refine ⟨hblank 4, (mnemonic_spec i).1.not_mem, ?_⟩
  split
  · exact List.not_mem_nil
  · rw [List.mem_cons, List.mem_append, not_or, not_or]
    exact ⟨by decide, hblank n, not_mem_intercalate (List.forall_mem_map.2 h)⟩

/-- An instruction can be read from its line if its operands can. -/
theorem legible_inst {tab : Nat} {i : Inst} {os : List Operand} (h : ReadsAll i.operands os)
    (hinst : Inst.ofOperands? i.mnemonic os = some i) : Legible tab (.inst i) := by
  obtain ⟨-, hcolon, hother⟩ := mnemonic_spec i
  rw [List.mem_cons, not_or] at hother
  refine ⟨not_mem_inst h.1, ?_⟩
  rw [Item.read?, lineWords_inst]
  simp [hcolon, hother, h.2, hinst]

/-- The count of a shift and the byte of a store are small enough to be immediates. -/
theorem reads_nat {n : Nat} (h : n < 0x8000000000000000) :
    Reads (toString n) [.imm (Int64.ofNat n)] := by
  have htext : toString (Int64.ofNat n) = toString n := by
    change toString (Int64.ofNat n).toInt = toString n
    rw [Int64.toInt_ofNat_of_lt h]
    rfl
  exact htext ▸ reads_imm (Int64.ofNat n)

/-- The places among the operands of an instruction. -/
def Inst.places : Inst → List Place
  | .storeImm p _ | .storeByte p | .lea _ p => [p]
  | _ => []

/-- The operands of an instruction that are numbers, but no immediates. -/
def Inst.counts : Inst → List Nat
  | .storeImm _ n | .shrImm _ n => [n]
  | _ => []

/-- What has to be checked of an instruction for it to be legible. -/
def Inst.Checked (i : Inst) : Prop :=
  (∀ p ∈ i.places, p.Legible) ∧ ∀ n ∈ i.counts, n < 0x8000000000000000

instance (i : Inst) : Decidable i.Checked := inferInstanceAs (Decidable (_ ∧ _))

theorem toNat_ofNat {n : Nat} (h : n < 0x8000000000000000) : (Int64.ofNat n).toInt.toNat = n := by
  rw [Int64.toInt_ofNat_of_lt h, Int.toNat_natCast]

/-- An instruction can be read from its line, whatever its registers, labels and immediates. -/
theorem legible_of_checked (tab : Nat) {i : Inst} (h : i.Checked) : Legible tab (.inst i) := by
  cases i with
  | pushImm n => exact legible_inst (readsAll_one (reads_imm n)) rfl
  | push r => exact legible_inst (readsAll_one (reads_reg r)) rfl
  | pushLabel l => exact legible_inst (readsAll_one (reads_label l)) rfl
  | pop r => exact legible_inst (readsAll_one (reads_reg r)) rfl
  | movImm d n => exact legible_inst (readsAll_two (reads_reg d) (reads_imm n)) rfl
  | mov d s => exact legible_inst (readsAll_two (reads_reg d) (reads_reg s)) rfl
  | movLowImm n =>
    have hedi : Reads "edi" [.half .rdi] := reads_solid (by decide +kernel) (by decide +kernel)
    exact legible_inst (readsAll_two hedi (reads_imm n)) rfl
  | storeImm p n =>
    have hp : p.Legible := h.1 p List.mem_cons_self
    have hn : n < 0x8000000000000000 := h.2 n List.mem_cons_self
    refine legible_inst (readsAll_two (reads_byte hp) (reads_nat hn)) ?_
    exact congrArg (fun k => some (Inst.storeImm p k)) (toNat_ofNat hn)
  | storeByte p =>
    have hal : Reads "al" [.lowest] := reads_solid (by decide +kernel) (by decide +kernel)
    exact legible_inst (readsAll_two (reads_byte (h.1 p List.mem_cons_self)) hal) rfl
  | lea d p =>
    have hp : p.Legible := h.1 p List.mem_cons_self
    exact legible_inst (readsAll_two (reads_reg d) (reads_solid hp.1 hp.2)) rfl
  | add d s => exact legible_inst (readsAll_two (reads_reg d) (reads_reg s)) rfl
  | addImm d n => exact legible_inst (readsAll_two (reads_reg d) (reads_imm n)) rfl
  | addLowImm n =>
    have heax : Reads "eax" [.half .rax] := reads_solid (by decide +kernel) (by decide +kernel)
    exact legible_inst (readsAll_two heax (reads_imm n)) rfl
  | sub d s => exact legible_inst (readsAll_two (reads_reg d) (reads_reg s)) rfl
  | subImm d n => exact legible_inst (readsAll_two (reads_reg d) (reads_imm n)) rfl
  | neg d => exact legible_inst (readsAll_one (reads_reg d)) rfl
  | mul s => exact legible_inst (readsAll_one (reads_reg s)) rfl
  | shrImm d n =>
    have hn : n < 0x8000000000000000 := h.2 n List.mem_cons_self
    refine legible_inst (readsAll_two (reads_reg d) (reads_nat hn)) ?_
    exact congrArg (fun k => some (Inst.shrImm d k)) (toNat_ofNat hn)
  | cmp a b => exact legible_inst (readsAll_two (reads_reg a) (reads_reg b)) rfl
  | cmpImm a n => exact legible_inst (readsAll_two (reads_reg a) (reads_imm n)) rfl
  | test a b => exact legible_inst (readsAll_two (reads_reg a) (reads_reg b)) rfl
  | moveEqual d s => exact legible_inst (readsAll_two (reads_reg d) (reads_reg s)) rfl
  | moveGreater d s => exact legible_inst (readsAll_two (reads_reg d) (reads_reg s)) rfl
  | jmp l => exact legible_inst (readsAll_one (reads_label l)) rfl
  | jumpZero l => exact legible_inst (readsAll_one (reads_label l)) rfl
  | jumpNotSign l => exact legible_inst (readsAll_one (reads_label l)) rfl
  | jumpAbove l => exact legible_inst (readsAll_one (reads_label l)) rfl
  | call l => exact legible_inst (readsAll_one (reads_label l)) rfl
  | ret => exact legible_inst readsAll_nil rfl
  | syscall => exact legible_inst readsAll_nil rfl

/-! ## Other lines -/

theorem legible_label (tab : Nat) (l : Label) : Legible tab (.label l) := by
  have htext : ((Item.label l).text tab).toList = l.text.toList ++ [':'] := by simp [Item.text]
  have hsolid : Solid (l.text.toList ++ [':']) := (solid_label l).append (by decide)
  refine ⟨htext ▸ hsolid.not_mem, ?_⟩
  rw [htext, Item.read?, lineWords_solid hsolid]
  simp [read?_label]

theorem legible_heading (tab : Nat) {title : String} (h : '\n' ∉ title.toList) :
    Legible tab (.heading title) := by
  have htext : ((Item.heading title).text tab).toList
      = headingRules.1 ++ (title.toList ++ headingRules.2) := by
    rw [Item.text, String.toList_append, String.toList_append, List.append_assoc]
    rfl
  have hrules : '\n' ∉ headingRules.1 ∧ '\n' ∉ headingRules.2 := by decide +kernel
  have hfront : headingRules.1
      = List.replicate 4 ' ' ++ ([';', ';'] ++ ' ' :: "----- ".toList) := by
    decide +kernel
  have hwords : ∃ rest, lineWords (headingRules.1 ++ (title.toList ++ headingRules.2))
      = [';', ';'] :: rest := by
    have hword : lineWords [';', ';'] = [[';', ';']] := lineWords_solid (by decide)
    rw [hfront, List.append_assoc, lineWords_replicate, List.append_assoc]
    exact ⟨_, (lineWords_append (.inl rfl) [';', ';'] _).trans (congrArg (· ++ _) hword)⟩
  refine ⟨?_, ?_⟩
  · rw [htext, List.mem_append, List.mem_append, not_or, not_or]
    exact ⟨hrules.1, h, hrules.2⟩
  · obtain ⟨rest, hrest⟩ := hwords
    have htitle : headingTitle (headingRules.1 ++ (title.toList ++ headingRules.2)) = title := by
      rw [headingTitle, List.drop_left, List.length_append, Nat.add_sub_cancel, List.take_left,
        String.ofList_toList]
    rw [htext, Item.read?, hrest]
    simp [htitle]

/-- The directives in texts of programs. -/
def directives : List String :=
  ["bits 64", "segment .text", "global _start", "segment .bss", "mem: resb 640000"]

/-- What has to be checked of an item for it to be legible. -/
def Item.Checked : Item → Prop
  | .inst i => i.Checked
  | .heading title => '\n' ∉ title.toList
  | .directive text => text ∈ directives
  | .label _ | .blank => True

instance : DecidablePred Item.Checked
  | .inst i => inferInstanceAs (Decidable i.Checked)
  | .heading _ => inferInstanceAs (Decidable (¬ _))
  | .directive _ => inferInstanceAs (Decidable (_ ∈ _))
  | .label _ | .blank => .isTrue trivial

theorem Item.Checked.legible {x : Item} (h : x.Checked) (tab : Nat) : Legible tab x := by
  cases x with
  | inst i => exact legible_of_checked tab h
  | heading title => exact legible_heading tab h
  | label l => exact legible_label tab l
  | blank => exact ⟨List.not_mem_nil, rfl⟩
  | directive text =>
    have hall : ∀ t ∈ directives, '\n' ∉ t.toList ∧ Item.read? t.toList = some (.directive t) := by
      decide +kernel
    exact hall text h

/-! ## Texts -/

variable {a n : Nat} {i : Instr} {insts : List Inst}

theorem checked_preamble : ∀ x ∈ header ++ dumpRoutine ++ entry, x.Checked := by
  decide +kernel

theorem checked_of_all (h : (insts.all fun x => x.places.isEmpty && x.counts.isEmpty) = true) :
    ∀ x ∈ insts, x.Checked := by
  intro x hx
  have hempty := List.all_eq_true.1 h x hx
  rw [Bool.and_eq_true, List.isEmpty_iff, List.isEmpty_iff] at hempty
  rw [Inst.Checked, hempty.1, hempty.2]
  exact ⟨List.forall_mem_nil _, List.forall_mem_nil _⟩

/-- The code of instructions has no places among its operands. -/
theorem checked_code (hi : Translatable n i) (h : code a n i = .ok insts) :
    ∀ x ∈ insts, x.Checked := by
  obtain ⟨hdef, hjump⟩ := hi
  obtain ⟨op, imm⟩ := i
  refine checked_of_all ?_
  cases op with
  | undefined k => cases hdef
  | push =>
    cases h
    split <;> rfl
  | branch =>
    cases h.symm.trans (code_condition (.inl rfl) (hjump rfl))
    rfl
  | body =>
    cases h.symm.trans (code_condition (.inr rfl) (hjump rfl))
    rfl
  | otherwise =>
    cases h.symm.trans (code_otherwise rfl (hjump rfl))
    rfl
  | close =>
    cases h.symm.trans (code_close rfl (hjump rfl))
    split <;> rfl
  | _ =>
    cases h
    rfl

theorem checked_heading (op : Op) (h : op.isDefined = true) :
    Item.Checked (.heading (heading op)) := by
  cases op with
  | undefined k => cases h
  | _ => decide +kernel

theorem checked_exit (n : Nat) : ∀ x ∈ exitSequence n, x.Checked := by
  have hend : ∀ x ∈ (exitSequence 0).tail, x.Checked := by decide +kernel
  exact List.forall_mem_cons.2 ⟨trivial, hend⟩

theorem checked_compileFrom {l : List Instr} (h : ∀ i ∈ l, Translatable n i) :
    ∀ x ∈ (compileFrom a n l).items, x.Checked := by
  induction l generalizing a with
  | nil => exact checked_exit n
  | cons i l ih =>
    have hi := h i List.mem_cons_self
    obtain ⟨insts, hcode⟩ := exists_code (a := a) hi
    rw [compileFrom_cons hcode]
    intro x hx
    rcases List.mem_append.1 hx with hx | hx
    · rw [piece, List.mem_cons, List.mem_cons, List.mem_map] at hx
      obtain rfl | rfl | ⟨inst, hinst, rfl⟩ := hx
      · trivial
      · exact checked_heading i.op hi.1
      · exact checked_code hi hcode inst hinst
    · exact ih (fun i' hi' => h i' (List.mem_cons_of_mem i hi')) x hx

theorem lines_append {line : List Char} (h : '\n' ∉ line) :
    lines (line ++ '\n' :: cs) = line :: lines cs := by
  induction line with
  | nil => simp [lines]
  | cons c line ih =>
    rw [List.mem_cons, not_or] at h
    rw [List.cons_append, lines, if_neg (Ne.symm h.1), ih h.2]

theorem toList_render (tab : Nat) (xs : List Item) :
    (render tab xs).toList = xs.flatMap fun x => (x.text tab).toList ++ ['\n'] := by
  have hfold : ∀ acc : String,
      (xs.foldl (fun text item => text ++ item.text tab ++ "\n") acc).toList
        = acc.toList ++ xs.flatMap fun x => (x.text tab).toList ++ ['\n'] := by
    induction xs with
    | nil => simp
    | cons x xs ih =>
      intro acc
      rw [List.foldl_cons, ih]
      simp
  rw [render]
  simpa using hfold ""

theorem lines_render {tab : Nat} {xs : List Item} (h : ∀ x ∈ xs, Legible tab x) (cs : List Char) :
    lines ((render tab xs).toList ++ cs) = (xs.map fun x => (x.text tab).toList) ++ lines cs := by
  rw [toList_render]
  induction xs with
  | nil => rfl
  | cons x xs ih =>
    obtain ⟨hx, hxs⟩ := List.forall_mem_cons.1 h
    rw [List.flatMap_cons, List.append_assoc, List.append_assoc, List.singleton_append,
      lines_append hx.1, ih hxs, List.map_cons, List.cons_append]

/-- Items that are legible, one by one, are legible as a text. -/
theorem mapM_lines_render {tab : Nat} {xs : List Item} (h : ∀ x ∈ xs, Legible tab x)
    (cs : List Char) :
    (lines ((render tab xs).toList ++ cs)).mapM Item.read?
      = ((lines cs).mapM Item.read?).map (xs ++ ·) := by
  rw [lines_render h]
  induction xs with
  | nil => simp
  | cons x xs ih =>
    obtain ⟨hx, hxs⟩ := List.forall_mem_cons.1 h
    rw [List.map_cons, List.cons_append, List.mapM_cons, hx.2, ih hxs]
    cases (lines cs).mapM Item.read? <;> rfl

theorem legible_preamble : ∀ x ∈ header ++ dumpRoutine ++ entry, Legible routineTab x :=
  fun x hx => (checked_preamble x hx).legible routineTab

theorem legible_compile {p : Program} (hp : TranslatableProgram p) :
    ∀ x ∈ (compile p).items, Legible 0 x :=
  fun x hx => (checked_compileFrom hp x hx).legible 0

/-- **The text of a program reads as the items of the program.** -/
theorem readText?_text {p : Program} (hp : TranslatableProgram p) :
    readText? (text p) = some (items p) := by
  rw [readText?, text, preamble, String.toList_append, mapM_lines_render legible_preamble,
    ← List.append_nil (render 0 (compile p).items).toList, mapM_lines_render (legible_compile hp)]
  simp [lines, items]

end StackLang.Assembly

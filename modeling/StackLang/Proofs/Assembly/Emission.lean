import StackLang.Proofs.Assembly.Layout
import StackLang.Proofs.Buffer
import StackLang.Proofs.Literal

/-!
# How the text of a program is written

A program is written line by line through a buffer, and a sink can refuse a piece at any line.
Since the texts are ASCII (`ascii_text`), a buffer hands on whole pieces, and the lines come to the
sink as the one text that they make up: all of it if the program can be compiled (`emit_of_good`),
and the pieces that were full before its first bad instruction if not (`emit_of_bad`).  So all that
a sink that fills up can do is to cut one text (`emit_into_limited`).  A writer of another kind may
come to know the pieces; if it never fails, then nothing but a bad instruction is reported
(`emit_eq_none_iff`).
-/

set_option autoImplicit false

namespace StackLang.Assembly

open Text (Ascii encode)
open Buffer (Behind handedOn)

variable {a n tab : Nat} {i : Instr} {l : List Instr} {p : Program} {k : Sink}

/-! ## The characters of a text -/

theorem ascii_int (x : Int) : Ascii (toString x) := by
  intro c hc
  rcases Literal.mem_toString_int hc with hd | rfl
  · simp only [Literal.isDigit, Bool.and_eq_true, decide_eq_true_eq] at hd
    omega
  · decide

theorem ascii_int64 (x : Int64) : Ascii (toString x) := ascii_int x.toInt

theorem ascii_nat (x : Nat) : Ascii (toString x) := ascii_int x

theorem ascii_reg (r : Reg) : Ascii r.name := by
  cases r <;> decide

theorem ascii_label (l : Label) : Ascii l.text := by
  cases l with
  | addr n => exact .append (by decide) (ascii_int n)
  | _ => decide

theorem ascii_place (p : Place) : Ascii p.text := by
  obtain ⟨base, disp, index⟩ := p
  simp only [Place.text]
  refine .append (.append (.append (.append (by decide) (ascii_reg base)) ?_) ?_)
    (by decide)
  · split
    · decide
    · split
      · exact ascii_int disp
      · exact .append (by decide) (ascii_int disp)
  · split
    · decide
    · exact .append (by decide) (ascii_reg _)
    · exact .append (.append (.append (by decide) (ascii_reg _)) (by decide))
        (ascii_nat _)

theorem ascii_mnemonic (i : Inst) : Ascii i.mnemonic := by
  cases i <;> rw [Inst.mnemonic] <;> decide

theorem ascii_operand (i : Inst) : ∀ t ∈ i.operands, Ascii t := by
  have hbyte (p : Place) : Ascii ("BYTE " ++ p.text) := .append (by decide) (ascii_place p)
  have hlow : Ascii "edi" ∧ Ascii "eax" ∧ Ascii "al" := by decide
  cases i <;>
    simp only [Inst.operands, List.forall_mem_cons, ascii_reg, ascii_label, ascii_int64, ascii_nat,
      ascii_place, hbyte, hlow, true_and] <;>
    exact List.forall_mem_nil _

theorem ascii_intercalate {ts : List String} (h : ∀ t ∈ ts, Ascii t) :
    Ascii (", ".intercalate ts) := by
  induction ts with
  | nil => decide
  | cons t ts ih =>
    obtain ⟨ht, hts⟩ := List.forall_mem_cons.1 h
    cases ts with
    | nil => rwa [String.intercalate_singleton]
    | cons u us =>
      rw [String.intercalate_cons_cons]
      exact .append (.append ht (by decide)) (ih hts)

theorem ascii_padded {s : String} (h : Ascii s) (n : Nat) : Ascii (Item.padded s n) := by
  refine h.append fun c hc => ?_
  rw [String.toList_ofList, List.mem_replicate] at hc
  rw [hc.2]
  decide

theorem ascii_inst (tab : Nat) (i : Inst) : Ascii ((Item.inst i).text tab) := by
  simp only [Item.text]
  split
  · exact .append (by decide) (ascii_mnemonic i)
  · have hword : Ascii (i.mnemonic ++ " ") := (ascii_mnemonic i).append (by decide)
    exact .append (.append (by decide) (ascii_padded hword tab))
      (ascii_intercalate (ascii_operand i))

theorem ascii_labelLine (tab : Nat) (l : Label) : Ascii ((Item.label l).text tab) :=
  (ascii_label l).append (by decide)

theorem ascii_name (op : Op) : Ascii op.name := by
  cases op with
  | undefined k => exact .append (.append (by decide) (ascii_nat _)) (by decide)
  | _ => decide

theorem ascii_heading (tab : Nat) (op : Op) : Ascii ((Item.heading (heading op)).text tab) := by
  have htitle : Ascii (heading op) := by
    rw [heading]
    split
    · decide
    · exact ascii_name op
  exact .append (.append (by decide) htitle) (by decide)

theorem ascii_front : ∀ x ∈ header ++ dumpRoutine ++ entry, Ascii (x.text routineTab) := by
  intro x hx
  cases x with
  | label l => exact ascii_labelLine routineTab l
  | inst i => exact ascii_inst routineTab i
  | heading title => simp [header, dumpRoutine, entry] at hx
  | directive d =>
    have hall : ∀ d ∈ ["bits 64", "segment .text", "global _start"], Ascii d := by decide
    exact hall d (by simpa [header, dumpRoutine, entry, or_assoc] using hx)
  | blank => exact List.forall_mem_nil _

theorem ascii_exit (n : Nat) : ∀ x ∈ exitSequence n, Ascii (x.text 0) := by
  have hend : ∀ x ∈ (exitSequence 0).tail, Ascii (x.text 0) := by decide
  exact List.forall_mem_cons.2 ⟨ascii_labelLine 0 (.addr n), hend⟩

theorem ascii_compileFrom (a n : Nat) (l : List Instr) :
    ∀ x ∈ (compileFrom a n l).items, Ascii (x.text 0) := by
  induction l generalizing a with
  | nil => exact ascii_exit n
  | cons i l ih =>
    cases hcode : code a n i with
    | error e =>
      rw [compileFrom, hcode]
      exact List.forall_mem_singleton.2 (ascii_labelLine 0 (.addr a))
    | ok insts =>
      rw [compileFrom_cons hcode, piece]
      refine List.forall_mem_append.2 ⟨?_, ih (a + 1)⟩
      refine List.forall_mem_cons.2 ⟨ascii_labelLine 0 (.addr a), ?_⟩
      refine List.forall_mem_cons.2 ⟨ascii_heading 0 i.op, ?_⟩
      exact List.forall_mem_map.2 fun x _ => ascii_inst 0 x

/-! ## The lines of a text -/

theorem foldl_render (tab : Nat) (s : String) (xs : List Item) :
    xs.foldl (fun text item => text ++ item.text tab ++ "\n") s = s ++ render tab xs := by
  induction xs generalizing s with
  | nil => rw [render, List.foldl_nil, List.foldl_nil, String.append_empty]
  | cons x xs ih =>
    rw [render, List.foldl_cons, List.foldl_cons, ih, ih, String.empty_append, String.append_assoc,
      String.append_assoc, String.append_assoc]

theorem render_cons (tab : Nat) (x : Item) (xs : List Item) :
    render tab (x :: xs) = x.text tab ++ "\n" ++ render tab xs := by
  rw [render, List.foldl_cons, foldl_render, String.empty_append]

theorem ascii_render {xs : List Item} (h : ∀ x ∈ xs, Ascii (x.text tab)) :
    Ascii (render tab xs) := by
  induction xs with
  | nil => exact List.forall_mem_nil _
  | cons x xs ih =>
    obtain ⟨hx, hxs⟩ := List.forall_mem_cons.1 h
    rw [render_cons]
    exact .append (hx.append (by decide)) (ih hxs)

theorem ascii_text (p : Program) : Ascii (text p) :=
  .append (ascii_render ascii_front) (ascii_render (ascii_compileFrom 0 p.size p.code.toList))

/-- Items that are written one by one are written as their text. -/
theorem behind_writeItems {s : String} {b : Buffer Sink Sink.Refusal} {xs : List Item}
    (h : Behind k s b) (hxs : ∀ x ∈ xs, Ascii (x.text tab)) :
    Behind k (s ++ render tab xs) (writeItems tab b xs) := by
  induction xs generalizing s b with
  | nil =>
    have hnil : s ++ render tab [] = s := String.append_empty
    rw [hnil]
    exact h
  | cons x xs ih =>
    obtain ⟨hx, hxs⟩ := List.forall_mem_cons.1 hxs
    rw [render_cons, ← String.append_assoc, writeItems, List.foldl_cons]
    exact ih (h.write (hx.append (by decide))) hxs

/-! ## Writing a program -/

/-- The buffer that all lines of a program have been written to, and that has not been flushed. -/
def filled {σ ε : Type} [Writer σ ε] (p : Program) (k : σ) : Buffer σ ε :=
  writeItems 0 (writeItems routineTab { sink := k } (header ++ dumpRoutine ++ entry))
    (compile p).items

theorem behind_filled (p : Program) (k : Sink) : Behind k (text p) (filled p k) := by
  have hfront := behind_writeItems (Buffer.behind_empty k) ascii_front
  rw [String.empty_append] at hfront
  exact behind_writeItems hfront (ascii_compileFrom 0 p.size p.code.toList)

/-- A program that can be compiled is written by filling the buffer and flushing it. -/
theorem emit_eq_flush {σ ε : Type} [Writer σ ε] (hp : p.linked = true)
    (h : (compile p).bad = none) (k : σ) :
    emit p k = ((filled p k).flush.sink, (filled p k).flush.error.map .output) := by
  simp only [emit, if_pos hp, h]
  rfl

/-- Of any other program nothing is flushed. -/
theorem emit_eq_filled {σ ε : Type} [Writer σ ε] {e : BadInstruction} (hp : p.linked = true)
    (h : (compile p).bad = some e) (k : σ) : emit p k = ((filled p k).sink, some (.bad e)) := by
  simp only [emit, if_pos hp, h]
  rfl

/-- **A program that can be compiled is written as if at once.** -/
theorem emit_of_good (hp : p.linked = true) (h : (compile p).bad = none) (k : Sink) :
    emit p k = ((Writer.write k (text p)).1, (Writer.write k (text p)).2.map .output) := by
  rw [emit_eq_flush hp h, (behind_filled p k).flush]

/-- **Of any other program the whole pieces are written.** -/
theorem emit_of_bad {e : BadInstruction} (hp : p.linked = true) (h : (compile p).bad = some e)
    (k : Sink) :
    ∃ sent rest, text p = sent ++ rest ∧
      sent.utf8ByteSize = handedOn (text p).utf8ByteSize ∧
      emit p k = ((Writer.write k sent).1, some (.bad e)) := by
  obtain ⟨sent, held, htext, hsent, hwrite, -⟩ := behind_filled p k
  refine ⟨sent, held, htext, hsent, ?_⟩
  rw [hwrite, emit_eq_filled hp h]

theorem emit_eq (hlinked : p.linked = true) (hp : TranslatableProgram p) :
    emit p (Sink.buffer "") = (.buffer (text p), none) := by
  rw [emit_of_good hlinked (compileFrom_bad hp)]
  simp [Writer.write]

/-- What has been written when nothing is reported. -/
theorem eq_text_of_emit {t : String} (h : emit p (Sink.buffer "") = (.buffer t, none)) :
    p.linked = true ∧ TranslatableProgram p ∧ t = text p := by
  cases hlinked : p.linked with
  | false =>
    rw [emit, hlinked] at h
    cases h
  | true =>
    cases hbad : (compile p).bad with
    | some e =>
      obtain ⟨sent, -, -, -, hemit⟩ := emit_of_bad hlinked hbad (.buffer "")
      cases hemit.symm.trans h
    | none =>
      have hp : TranslatableProgram p := compileFrom_bad_iff.1 hbad
      have htext := (emit_eq hlinked hp).symm.trans h
      exact ⟨rfl, hp, (Sink.buffer.inj (Prod.mk.inj htext).1).symm⟩

/-! ## A writer that never fails -/

section

variable {σ ε : Type} [Writer σ ε]

theorem sound_writeItems {b : Buffer σ ε} (h : b.Sound) (tab : Nat) (xs : List Item) :
    (writeItems tab b xs).Sound := by
  induction xs generalizing b with
  | nil => exact h
  | cons x xs ih => exact ih (h.write _)

theorem sound_filled (p : Program) {k : σ} (hk : Writer.Unfailing k) : (filled p k).Sound := by
  have hempty : ({ sink := k } : Buffer σ ε).Sound := ⟨rfl, hk⟩
  exact sound_writeItems (sound_writeItems hempty _ _) _ _

/-- To a writer that never fails, every program is written that can be compiled. -/
theorem emit_eq_none_iff {k : σ} (hp : p.linked = true) (hk : Writer.Unfailing k) :
    (emit p k).2 = none ↔ ∀ i ∈ p.code.toList, Translatable p.size i := by
  rw [← compileFrom_bad_iff (a := 0), ← compile]
  cases hbad : (compile p).bad with
  | some e => simp [emit_eq_filled hp hbad]
  | none => simp [emit_eq_flush hp hbad, (sound_filled p hk).flush.error]

end

/-! ## The first instruction that cannot be compiled -/

/-- The items of instructions from address `a` on, each with its label. -/
def pieces (a n : Nat) : List Instr → List Item
  | [] => []
  | i :: l =>
    match code a n i with
    | .ok insts => piece a i insts ++ pieces (a + 1) n l
    | .error _ => pieces (a + 1) n l

theorem exists_first_bad (h : ¬ ∀ i ∈ l, Translatable n i) :
    ∃ l₁ i l₂, l = l₁ ++ i :: l₂ ∧ (∀ j ∈ l₁, Translatable n j) ∧ ¬ Translatable n i := by
  induction l with
  | nil => exact absurd (List.forall_mem_nil _) h
  | cons i l ih =>
    by_cases hi : Translatable n i
    · obtain ⟨l₁, j, l₂, rfl, hl₁, hj⟩ := ih fun hl => h (List.forall_mem_cons.2 ⟨hi, hl⟩)
      exact ⟨i :: l₁, j, l₂, rfl, List.forall_mem_cons.2 ⟨hi, hl₁⟩, hj⟩
    · exact ⟨[], i, l, rfl, List.forall_mem_nil _, hi⟩

/-- Compilation stops at the first instruction without a translation, behind its label. -/
theorem compileFrom_first_bad {l₁ l₂ : List Instr} (hl₁ : ∀ j ∈ l₁, Translatable n j)
    (hi : ¬ Translatable n i) :
    compileFrom a n (l₁ ++ i :: l₂) =
      ⟨pieces a n l₁ ++ [.label (.addr (a + l₁.length))],
        some (complaint (a + l₁.length) n i)⟩ := by
  induction l₁ generalizing a with
  | nil =>
    rw [List.nil_append, compileFrom, code_of_not_translatable hi]
    rfl
  | cons j l₁ ih =>
    obtain ⟨hj, hl₁⟩ := List.forall_mem_cons.1 hl₁
    obtain ⟨insts, hcode⟩ := exists_code (a := a) hj
    rw [List.cons_append, compileFrom_cons hcode, ih hl₁, pieces, hcode, List.append_assoc,
      List.length_cons, show a + 1 + l₁.length = a + (l₁.length + 1) by omega]

/-- The text of a program up to the label of the address `a`. -/
def textTo (p : Program) (a : Nat) : String :=
  preamble ++ render 0 (pieces 0 p.size (p.code.toList.take a) ++ [.label (.addr a)])

theorem exists_compile_bad (h : ¬ TranslatableProgram p) :
    ∃ a i, p.code[a]? = some i ∧ ¬ Translatable p.size i ∧
      (∀ b < a, ∀ j, p.code[b]? = some j → Translatable p.size j) ∧
      (compile p).bad = some (complaint a p.size i) ∧ text p = textTo p a := by
  obtain ⟨l₁, i, l₂, hcode, hl₁, hi⟩ := exists_first_bad h
  have hcompile : compileFrom 0 p.size p.code.toList =
      ⟨pieces 0 p.size l₁ ++ [.label (.addr l₁.length)],
        some (complaint l₁.length p.size i)⟩ := by
    rw [hcode, compileFrom_first_bad hl₁ hi, Nat.zero_add]
  refine ⟨l₁.length, i, ?_, hi, ?_, ?_, ?_⟩
  · rw [← Array.getElem?_toList, hcode]
    simp
  · intro b hb j hj
    rw [← Array.getElem?_toList, hcode, List.getElem?_append_left hb] at hj
    exact hl₁ j (List.mem_of_getElem? hj)
  · rw [compile, hcompile]
  · rw [text, compile, hcompile, textTo, hcode, List.take_left]

/-! ## A sink that fills up -/

/-- **A sink that fills up gets the beginning of the text, and the right thing is reported.**  Let
a linked program be written to a sink with room for `n` octets.  If all its instructions can be
compiled, the sink gets the first `n` octets of the text that a sink without a bound gets, or all of
them if there are no more; nothing is reported in the latter case, and in the former that the sink
is full.  Otherwise what is reported is the first instruction that cannot be compiled, whether or
not the sink is full; it gets a beginning of the text up to the label of that instruction, which is
as much of the full pieces as there is room for. -/
theorem emit_into_limited (hp : p.linked = true) (n : Nat) :
    (TranslatableProgram p →
      emit p (Sink.buffer "") = (.buffer (text p), none) ∧
      ∃ w, emit p (Sink.limited "" n) =
          (w, if (text p).utf8ByteSize ≤ n then none else some (.output .full)) ∧
        encode w.text = (encode (text p)).take n) ∧
    (¬ TranslatableProgram p →
      ∃ a i w, p.code[a]? = some i ∧ ¬ Translatable p.size i ∧
        (∀ b < a, ∀ j, p.code[b]? = some j → Translatable p.size j) ∧
        emit p (Sink.limited "" n) = (w, some (.bad (complaint a p.size i))) ∧
        encode w.text =
          (encode (textTo p a)).take (min n (handedOn (textTo p a).utf8ByteSize))) := by
  constructor
  · intro hgood
    have hbad : (compile p).bad = none := compileFrom_bad hgood
    refine ⟨emit_eq hp hgood, _, ?_, Sink.encode_write_limited (ascii_text p) n⟩
    rw [emit_of_good hp hbad, Sink.write_limited_snd]
    split <;> rfl
  · intro hno
    obtain ⟨a, i, hi, hbad, hfirst, hcompile, htext⟩ := exists_compile_bad hno
    obtain ⟨sent, rest, hsplit, hsent, hemit⟩ := emit_of_bad hp hcompile (.limited "" n)
    rw [htext] at hsplit hsent
    have hascii : Ascii sent := by
      refine Ascii.left (t := rest) ?_
      rw [← hsplit, ← htext]
      exact ascii_text p
    have hpieces : encode sent =
        (encode (textTo p a)).take (handedOn (textTo p a).utf8ByteSize) := by
      rw [← hsent, ← Text.length_encode, hsplit, Text.encode_append, List.take_left]
    refine ⟨a, i, _, hi, hbad, hfirst, hemit, ?_⟩
    rw [Sink.encode_write_limited hascii, hpieces, List.take_take]

/-- `TRUE` is cut after ten octets, and is written whole if there is just room for it; an operation
that is not defined is reported with no room at all. -/
theorem emit_into_limited_short :
    let p : Program := { code := #[⟨.pushTrue, 0⟩], linked := true }
    let q : Program := { code := #[⟨.pushTrue, 0⟩, ⟨.undefined 0, 0⟩], linked := true }
    p.linked = true ∧ q.linked = true ∧
      (∃ w, emit p (Sink.limited "" 10) = (w, some (.output .full)) ∧
        encode w.text = encode "bits 64\nse") ∧
      (∃ w, emit p (Sink.limited "" (text p).utf8ByteSize) = (w, none) ∧
        encode w.text = encode (text p)) ∧
      ∃ w, emit q (Sink.limited "" 0) = (w, some (.bad (.unknownOp 1 (.undefined 0)))) := by
  intro p q
  have hp : TranslatableProgram p := by decide
  have hq : ¬ TranslatableProgram q := by decide
  have hfront : (encode (text p)).take 11 = encode "bits 64\nseg" := by decide +kernel
  have hcut : (encode (text p)).take 10 = encode "bits 64\nse" := by
    have htake := congrArg (List.take 10) hfront
    rw [List.take_take, Nat.min_eq_left (by omega)] at htake
    exact htake.trans (by decide +kernel)
  have hlong : ¬ (text p).utf8ByteSize ≤ 10 := by
    have hlength := congrArg List.length hfront
    rw [List.length_take, Text.length_encode] at hlength
    have heleven : (encode "bits 64\nseg").length = 11 := by decide +kernel
    omega
  obtain ⟨-, w, hw, htext⟩ := (emit_into_limited (p := p) rfl 10).1 hp
  obtain ⟨-, w', hw', htext'⟩ := (emit_into_limited (p := p) rfl (text p).utf8ByteSize).1 hp
  obtain ⟨a, i, w'', hi, hbad, -, hw'', -⟩ := (emit_into_limited (p := q) rfl 0).2 hq
  refine ⟨rfl, rfl, ⟨w, ?_, htext.trans hcut⟩, ⟨w', ?_, ?_⟩, w'', ?_⟩
  · rw [hw, if_neg hlong]
  · rw [hw', if_pos (Nat.le_refl _)]
  · rw [htext', ← Text.length_encode, List.take_length]
  · -- the first of the two instructions can be compiled
    rcases a with _ | _ | a
    · cases hi
      exact absurd (by decide) hbad
    · cases hi
      exact hw''
    · cases hi

end StackLang.Assembly

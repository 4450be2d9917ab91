import StackLang.Proofs.Machine.Budget
import StackLang.Proofs.Words

/-!
# Reading back what has been dumped

What a machine writes is the values that it dumps, each on a line of its own (`out_after`).  Such a
line is a single token (`Token.scan_lines`), and the token is a literal and no word of the language,
so that the output of a run is itself the source of a program, the one that pushes these values
(`load_valueLines`).
-/

set_option autoImplicit false

namespace StackLang

open Text (encode)

/-- Values as a text, each on a line of its own. -/
def valueLines (vs : List Int64) : String := String.join ((vs.map toString).map (· ++ "\n"))

theorem valueLines_append (vs ws : List Int64) :
    valueLines (vs ++ ws) = valueLines vs ++ valueLines ws := by
  rw [valueLines, List.map_append, List.map_append, String.join_append]
  rfl

/-! ## What a run dumps -/

namespace Machine

variable {m m' : Machine} {i : Instr} {e : Effect} {t : String} {k : Nat}

/-- The value that the next step dumps, if it dumps one. -/
def dumps? (m : Machine) : Option Int64 :=
  m.next?.bind fun i => if i.op = .dump then m.stack.head? else none

/-- The values that the next `k` steps dump. -/
def dumped : (k : Nat) → Machine → List Int64
  | 0, _ => []
  | k + 1, m => m.dumps?.toList ++ dumped k m.step.1

theorem dumps?_of_dump (hi : m.next? = some i) (hop : i.op = .dump) :
    m.dumps? = m.stack.head? := by
  rw [dumps?, hi, Option.bind_some, if_pos hop]

theorem dumps?_of_ne (hi : m.next? = some i) (hop : i.op ≠ .dump) : m.dumps? = none := by
  rw [dumps?, hi, Option.bind_some, if_neg hop]

/-- Only a dump writes a line. -/
theorem Acts.lines_eq_nil {ip size : Nat} (h : Acts i ip size e) (hop : i.op ≠ .dump) :
    e.lines = [] := by
  cases h with
  | dump hdump => exact absurd hdump hop
  | _ => rfl

theorem Acts.taken_of_dump {ip size : Nat} (h : Acts i ip size e) (hop : i.op = .dump) :
    ∃ a, e.taken = [a] ∧ e.lines = [toString a ++ "\n"] := by
  cases h with
  | dump => exact ⟨_, rfl, rfl⟩
  | push h => simp [Instr.pushed?, hop] at h
  | combine h => simp [Op.combined?, hop] at h
  | dupl h | loop h => cases hop.symm.trans h
  | jump h | zero h | nonzero h => rcases h with h | h <;> cases hop.symm.trans h

/-- What an effect writes is the value that the step dumps. -/
theorem Acts.join_lines (hi : m.next? = some i) (hacts : Acts i m.ip m.code.size e)
    (hdoes : m.Does e m') : String.join e.lines = valueLines m.dumps?.toList := by
  by_cases hop : i.op = .dump
  · obtain ⟨a, htaken, hlines⟩ := hacts.taken_of_dump hop
    obtain ⟨rest, out, hstack, -⟩ := hdoes
    rw [hlines, dumps?_of_dump hi hop, hstack, htaken]
    rfl
  · rw [hacts.lines_eq_nil hop, dumps?_of_ne hi hop]
    rfl

/-- A step that faults dumps nothing, if all that is written is kept. -/
theorem dumps?_of_fault {f : Fault} (ht : m.out = .buffer t) (h : m.step = (m', some f)) :
    m.dumps? = none := by
  obtain ⟨i, c, stack, out, hi, hfails, -, -⟩ := step_fault_cases h
  by_cases hop : i.op = .dump
  · rw [dumps?_of_dump hi hop]
    cases hfails with
    | combine h => simp [Op.combined?, hop] at h
    | empty _ hstack => rw [hstack]; rfl
    | jump h | zero h => rcases h with h | h <;> cases hop.symm.trans h
    | refused _ _ hwrite =>
      rw [ht] at hwrite
      cases hwrite
    | undefined h => rw [hop] at h; cases h
  · exact dumps?_of_ne hi hop

theorem out_step (ht : m.out = .buffer t) :
    m.step.1.out = .buffer (t ++ valueLines m.dumps?.toList) := by
  have hnone (h : m.dumps? = none) : t ++ valueLines m.dumps?.toList = t := by
    rw [h]
    exact String.append_empty
  rcases hs : m.step with ⟨m', _ | f⟩
  · obtain ⟨hm, rfl⟩ | ⟨i, e, m₁, hi, hacts, hdoes, rfl⟩ := step_cases hs
    · rw [hnone (by rw [dumps?, halted_iff.1 hm]; rfl)]
      exact ht
    · have hout := hdoes.out_eq
      rw [ht, Writer.writeAll?_buffer, hacts.join_lines hi hdoes] at hout
      exact (Option.some_inj.1 hout).symm
  · have hfault := out_fault_of_buffer ht (f := f) (by rw [hs])
    rw [hs] at hfault
    rw [hnone (dumps?_of_fault ht hs)]
    exact hfault

/-- **What has been written after some steps is the values that they dump.** -/
theorem out_after (ht : m.out = .buffer t) (k : Nat) :
    (m.after k).out = .buffer (t ++ valueLines (m.dumped k)) := by
  induction k generalizing m t with
  | zero => rw [after, dumped, ht]; exact congrArg _ String.append_empty.symm
  | succ k ih =>
    rw [after, ih (out_step ht), dumped, valueLines_append, String.append_assoc]

/-- A bounded run is a number of steps. -/
theorem exists_runFor_eq_after (m : Machine) (k : Nat) : ∃ j ≤ k, (m.runFor k).1 = m.after j := by
  induction k generalizing m with
  | zero => exact ⟨0, Nat.le_refl 0, rfl⟩
  | succ k ih =>
    rw [runFor]
    by_cases hm : m.halted = true
    · rw [if_pos hm]
      exact ⟨0, Nat.zero_le _, rfl⟩
    · rw [if_neg hm]
      rcases hs : m.step with ⟨m', _ | f⟩
      · obtain ⟨j, hj, hrun⟩ := ih m'
        exact ⟨j + 1, by omega, by rw [after, hs]; exact hrun⟩
      · exact ⟨1, by omega, by rw [after, hs]; rfl⟩

end Machine

/-! ## Values as source text -/

theorem isWord_toString (x : Int64) : Token.IsWord (toString x).toList := by
  refine ⟨Literal.toList_toString_ne_nil x, fun c hc => ?_, fun hslashes => ?_⟩
  · rcases Literal.mem_toString hc with hd | rfl
    · exact Literal.isSpace_of_isDigit hd
    · decide
  · rcases Literal.mem_toString (hslashes.subset List.mem_cons_self) with hd | hd
    · revert hd
      decide
    · cases hd

/-- The tokens of values, each on a line of its own. -/
def valueTokens (file : String) (vs : List Int64) : List Token :=
  vs.zipIdx.map fun x => ⟨file, (x.2 : Int) + 1, 1, toString x.1⟩

theorem scan_valueLines (file : String) (vs : List Int64) :
    Token.scan file (encode (valueLines vs)) = valueTokens file vs := by
  have hwords : ∀ w ∈ vs.map toString, Token.IsWord w.toList :=
    List.forall_mem_map.2 fun x _ => isWord_toString x
  rw [valueLines, Token.scan_lines hwords, List.zipIdx_map, List.map_map]
  rfl

/-- No word of the language is a literal. -/
theorem Vocabulary.find?_toString (duplIsDump : Bool) (x : Int64) :
    (choose duplIsDump).find? (toString x) = none := by
  have hwords : ∀ w ∈ (choose duplIsDump).words, Literal.read? w.1.toList = none := by
    cases duplIsDump <;> decide +kernel
  refine find?_eq_none_iff.2 fun op hmem => ?_
  cases (hwords _ hmem).symm.trans (Literal.read?_toString x)

/-- The instruction that pushes a value. -/
def Instr.pushing (x : Int64) : Instr := ⟨.push, x⟩

theorem Instr.ofToken_toString (duplIsDump : Bool) (x : Int64) {t : Token}
    (ht : t.text = toString x) : ofToken (.choose duplIsDump) t = .ok (pushing x) := by
  have hread : Literal.readString? (toString x) = some x := Literal.read?_toString x
  rw [ofToken, ht, Vocabulary.find?_toString, hread]
  rfl

theorem Instr.mapM_ofToken_valueTokens (duplIsDump : Bool) (file : String) (vs : List Int64) :
    (valueTokens file vs).mapM (ofToken (.choose duplIsDump)) = .ok (vs.map pushing) := by
  have hall (l : List (Int64 × Nat)) :
      (l.map fun x => Token.mk file ((x.2 : Int) + 1) 1 (toString x.1)).mapM
        (ofToken (.choose duplIsDump)) = .ok (l.map fun x => pushing x.1) := by
    induction l with
    | nil => rfl
    | cons x l ih =>
      rw [List.map_cons, List.mapM_cons, ofToken_toString duplIsDump x.1 rfl, ih]
      rfl
  have hvalues : (vs.zipIdx.map fun x => pushing x.1) = (vs.zipIdx.map Prod.fst).map pushing := by
    rw [List.map_map]
    rfl
  rw [valueTokens, hall, hvalues, List.zipIdx_map_fst]

/-- The block that pushes values. -/
def Block.pushes : List Int64 → Block
  | [] => nil
  | x :: vs => plain ⟨.pushing x, rfl⟩ (pushes vs)

theorem Block.flatten_pushes (vs : List Int64) : (pushes vs).flatten = vs.map .pushing := by
  induction vs with
  | nil => rfl
  | cons x vs ih => rw [pushes, flatten, ih, List.map_cons]

theorem Block.linkedAt_pushes (a : Nat) (vs : List Int64) :
    (pushes vs).linkedAt a = vs.map .pushing := by
  induction vs generalizing a with
  | nil => rfl
  | cons x vs ih => rw [pushes, linkedAt, ih, List.map_cons]

namespace Program

/-- The linked program that pushes values. -/
def pushing (file : String) (vs : List Int64) : Program :=
  { source := file, code := (vs.map .pushing).toArray, linked := true }

theorem link_pushing (file : String) (vs : List Int64) :
    ({ pushing file vs with linked := false } : Program).link = (pushing file vs, none) := by
  have hops : Program.ops { pushing file vs with linked := false } = (Block.pushes vs).ops := by
    rw [← Block.ops_flatten, Block.flatten_pushes]
    rfl
  have haim : Instr.aimAll (pushing file vs).code ((Block.pushes vs).targets 0) =
      (pushing file vs).code := by
    have hcode := Block.aimAll_flatten (Block.pushes vs)
    rw [Block.flatten_pushes, Block.linkedAt_pushes] at hcode
    exact Array.toList_inj.1 hcode
  rw [link_of_ops_eq rfl hops, haim]
  rfl

/-- **A text of values is the source of the program that pushes them.** -/
theorem load_valueLines (file : String) (duplIsDump : Bool) (vs : List Int64) :
    load file (.choose duplIsDump) (encode (valueLines vs)) = .ok (pushing file vs) := by
  rw [load, scan_valueLines,
    ofTokensLinked_ok (Instr.mapM_ofToken_valueTokens duplIsDump file vs),
    show link { source := file, code := (vs.map Instr.pushing).toArray } = _ from
      link_pushing file vs]

/-- **What has been dumped can be read back.**  Let a linked program run for any number of steps,
with a sink that keeps everything, and dump some values.  What it has written is the source of a
program, in either vocabulary and under any name: the one that pushes these values, each of them a
token at the start of a line of its own.  What a bounded run returns is the output after some of its
steps. -/
theorem dumped_values_load {p : Program} (hp : p.linked = true) :
    ∃ m, Machine.ofProgram? p (Sink.buffer "") = some m ∧
      (∀ (k : Nat) (file : String) (duplIsDump : Bool),
        ∃ out, (m.after k).out = .buffer out ∧
          Token.scan file (encode out) =
            (m.dumped k).zipIdx.map (fun x => ⟨file, (x.2 : Int) + 1, 1, toString x.1⟩) ∧
          load file (.choose duplIsDump) (encode out) =
            .ok { source := file
                  code := ((m.dumped k).map fun v => (⟨.push, v⟩ : Instr)).toArray
                  linked := true }) ∧
      ∀ k, ∃ j ≤ k, (p.interpret k).out = (m.after j).out.text := by
  have hm : Machine.ofProgram? p (Sink.buffer "") = some { code := p.code, out := .buffer "" } :=
    if_pos hp
  refine ⟨_, hm, fun k file duplIsDump => ⟨_, Machine.out_after rfl k, ?_, ?_⟩, fun k => ?_⟩
  · rw [String.empty_append]
    exact scan_valueLines file _
  · rw [String.empty_append]
    exact load_valueLines file duplIsDump _
  · obtain ⟨j, hj, hrun⟩ := Machine.exists_runFor_eq_after { code := p.code, out := .buffer "" } k
    exact ⟨j, hj, by rw [interpret_eq hm, hrun]⟩

/-- The least value and 1, and then a fault. -/
theorem dumped_values_load_least :
    let p : Program :=
      { code := #[⟨.push, Int64.minValue⟩, ⟨.dump, 0⟩, ⟨.pushTrue, 0⟩, ⟨.dump, 0⟩, ⟨.dump, 0⟩]
        linked := true }
    p.linked = true ∧
      ∃ m, Machine.ofProgram? p (Sink.buffer "") = some m ∧
        (m.after 6).out = .buffer "-9223372036854775808\n1\n" ∧
        load "f" .standard (encode "-9223372036854775808\n1\n") =
          .ok { source := "f"
                code := #[⟨.push, Int64.minValue⟩, ⟨.push, 1⟩]
                linked := true } := by
  intro p
  obtain ⟨m, hm, hload, -⟩ := dumped_values_load (p := p) rfl
  cases hm
  obtain ⟨out, hout, -, hread⟩ := hload 6 "f" false
  have hdumped : Machine.dumped 6 { code := p.code, out := Sink.buffer "" } =
      [Int64.minValue, 1] := by
    decide +kernel
  have hkept : (Machine.after 6 { code := p.code, out := Sink.buffer "" }).out =
      .buffer "-9223372036854775808\n1\n" := by
    decide +kernel
  obtain rfl := Sink.buffer.inj (hout.symm.trans hkept)
  rw [hdumped] at hread
  exact ⟨rfl, _, rfl, hkept, hread⟩

end Program

end StackLang

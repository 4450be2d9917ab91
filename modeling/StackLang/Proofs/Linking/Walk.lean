import StackLang.Proofs.Linking.Reader

/-!
# The linker follows the reader

The walk of the linker keeps addresses on a stack and writes immediates in place, the last ones of
them over others that it wrote before.  `Reader.linker` is the state in which this leaves it after
the words of a reader: the code aimed at the targets of the reader, with the addresses where the
reader's blocks were opened.  One visit takes it from a reader to the next (`visit_linker`), so the
whole walk does what reading all words does (`walk_linker`), and linking a program is reading its
words (`link_eq`).
-/

set_option autoImplicit false

namespace StackLang

/-- The operations of a program. -/
def Program.ops (p : Program) : List Op := p.code.toList.map Instr.op

@[simp] theorem Program.length_ops (p : Program) : p.ops.length = p.size := by
  simp [Program.ops, Program.size]

/-! ## What a visit does

One equation for each way a word can meet the innermost open block. -/

namespace Linker

variable {s : Linker} {a ip : Nat} {rest : List Nat}

theorem visitOtherwise_branch (ho : s.opened = a :: rest) (h : (s.instrAt a).op = .branch) :
    s.visitOtherwise ip =
      ({ code := Instr.setImmAt s.code a (address (ip + 1)), opened := ip :: rest }, none) := by
  simp [visitOtherwise, ho, h]

theorem visitOtherwise_wrong (ho : s.opened = a :: rest) (h : (s.instrAt a).op ≠ .branch) :
    s.visitOtherwise ip = (s, some ⟨ip, .otherwise, .wrongBlock (s.instrAt a).op a⟩) := by
  simp [visitOtherwise, ho, h]

theorem visitBody_loop (ho : s.opened = a :: rest) (h : (s.instrAt a).op = .loop) :
    s.visitBody ip =
      ({ code := Instr.setImmAt s.code ip (address a), opened := ip :: rest }, none) := by
  simp [visitBody, ho, h]

theorem visitBody_wrong (ho : s.opened = a :: rest) (h : (s.instrAt a).op ≠ .loop) :
    s.visitBody ip = (s, some ⟨ip, .body, .wrongBlock (s.instrAt a).op a⟩) := by
  simp [visitBody, ho, h]

theorem visitClose_choice (ho : s.opened = a :: rest)
    (h : (s.instrAt a).op = .branch ∨ (s.instrAt a).op = .otherwise) :
    s.visitClose ip =
      ({ code := Instr.setImmAt (Instr.setImmAt s.code a (address ip)) ip (address (ip + 1)),
         opened := rest }, none) := by
  rcases h with h | h <;> simp [visitClose, ho, h]

theorem visitClose_body (ho : s.opened = a :: rest) (h : (s.instrAt a).op = .body) :
    s.visitClose ip =
      ({ code := Instr.setImmAt (Instr.setImmAt s.code ip (s.instrAt a).imm) a
           (address (ip + 1)),
         opened := rest }, none) := by
  simp [visitClose, ho, h]

theorem visitClose_loop (ho : s.opened = a :: rest) (h : (s.instrAt a).op = .loop) :
    s.visitClose ip = (s, some ⟨ip, .close, .wrongBlock .loop a⟩) := by
  simp [visitClose, ho, h]

end Linker

namespace Reader

/-- The state of the linker when it has visited the words of a reader. -/
def linker (r : Reader) (code : Array Instr) : Linker where
  code := Instr.aimAll code r.targets
  opened := r.opened

/-- The complaint about a word that does not fit. -/
def mismatch (r : Reader) (op : Op) : StructureError where
  addr := r.size
  op := op
  cause :=
    match r.frames with
    | [] => .nothingOpen
    | f :: fs => .wrongBlock f.opener (Frame.opsOf fs ++ f.front).length

/-! ## What the linker sees -/

theorem instrAt_linker {r : Reader} {code : Array Instr} {a : Nat} {op : Op}
    (h : (code.toList.map Instr.op)[a]? = some op) :
    ∃ i : Instr, i.op = op ∧ (r.linker code).instrAt a = i.aim r.targets[a]?.join := by
  rw [List.getElem?_map, Array.getElem?_toList] at h
  obtain ⟨i, hi, rfl⟩ := Option.map_eq_some_iff.1 h
  refine ⟨i, rfl, ?_⟩
  rw [Linker.instrAt, Array.getD_eq_getD_getElem?, linker, Instr.getElem?_aimAll, hi]
  rfl

theorem instrAt_linker_op {r : Reader} {code : Array Instr} {a : Nat} {op : Op}
    (h : (code.toList.map Instr.op)[a]? = some op) :
    ((r.linker code).instrAt a).op = op := by
  obtain ⟨i, rfl, hi⟩ := instrAt_linker (r := r) h
  rw [hi, Instr.aim_op]

variable {code : Array Instr} {fs : List Frame} {f : Frame} {last : Block} {op : Op}
  {rest : List Op}

/-- The opener of the innermost block is where the linker looks for it. -/
theorem getElem?_opener (h : code.toList.map Instr.op = ops ⟨f :: fs, last⟩ ++ rest) :
    (code.toList.map Instr.op)[(Frame.opsOf fs ++ f.front).length]? = some f.opener := by
  rw [h]
  simp [ops, Frame.opsOf, Frame.ops]

theorem getElem?_next {r : Reader} (h : code.toList.map Instr.op = r.ops ++ op :: rest) :
    (code.toList.map Instr.op)[r.size]? = some op := by
  rw [h, size, List.getElem?_append_right (Nat.le_refl _), Nat.sub_self]
  rfl

/-- The targets of a reader around the opener of its innermost block. -/
theorem targets_cons (fs : List Frame) (f : Frame) (last : Block) :
    targets ⟨f :: fs, last⟩ =
      (Frame.targetsOf fs ++ f.frontTargets (Frame.opsOf fs).length) ++
        f.kept (Frame.opsOf fs).length ::
          last.targets ((Frame.opsOf fs ++ f.front).length + 1) := by
  simp [targets, Frame.targetsOf, Frame.opsOf, Frame.ops, Nat.add_assoc]

theorem set_targets_cons (fs : List Frame) (f : Frame) (last : Block) (t : Option Nat) :
    (targets ⟨f :: fs, last⟩).set (Frame.opsOf fs ++ f.front).length t =
      (Frame.targetsOf fs ++ f.frontTargets (Frame.opsOf fs).length) ++
        t :: last.targets ((Frame.opsOf fs ++ f.front).length + 1) := by
  have hlen : (Frame.opsOf fs ++ f.front).length
      = (Frame.targetsOf fs ++ f.frontTargets (Frame.opsOf fs).length).length := by simp
  rw [targets_cons, List.set_append_right _ _ (Nat.le_of_eq hlen.symm), hlen, Nat.sub_self]
  rfl

theorem opener_lt_length (fs : List Frame) (f : Frame) (last : Block) :
    (Frame.opsOf fs ++ f.front).length < (targets ⟨f :: fs, last⟩).length := by
  simp [size, ops, Frame.opsOf, Frame.ops]

/-! ## The targets after one word more -/

theorem targets_branch (fs : List Frame) (last : Block) :
    targets ⟨.branch last :: fs, .nil⟩ = targets ⟨fs, last⟩ ++ [none] := by
  rw [targets_cons]
  rfl

theorem targets_loop (fs : List Frame) (last : Block) :
    targets ⟨.loop last :: fs, .nil⟩ = targets ⟨fs, last⟩ ++ [none] := by
  rw [targets_cons]
  rfl

theorem targets_ofOp (fs : List Frame) (last : Block) (h : op.isBlockWord = false) :
    targets ⟨fs, last.append (.ofOp op)⟩ = targets ⟨fs, last⟩ ++ [none] := by
  simp [targets, Block.targets_append, Block.ofOp_plain h, Block.targets]

theorem targets_otherwise (fs : List Frame) (before last : Block) :
    targets ⟨.otherwise before last :: fs, .nil⟩ =
      (targets ⟨.branch before :: fs, last⟩).set (Frame.opsOf fs ++ before.ops).length
        (some (size ⟨.branch before :: fs, last⟩ + 1)) ++ [none] := by
  have hset := set_targets_cons fs (.branch before) last
    (some (size ⟨.branch before :: fs, last⟩ + 1))
  rw [Frame.front] at hset
  rw [hset, targets_cons]
  simp [Frame.frontTargets, Frame.kept, size, ops, Frame.opsOf, Frame.ops, Frame.front,
    Block.targets, Nat.add_assoc]
  omega

theorem targets_body (fs : List Frame) (before last : Block) :
    targets ⟨.body before last :: fs, .nil⟩ =
      targets ⟨.loop before :: fs, last⟩ ++ [some (Frame.opsOf fs ++ before.ops).length] := by
  rw [targets_cons, targets_cons]
  simp [Frame.frontTargets, Frame.kept, Frame.front, Block.targets]

theorem targets_when (fs : List Frame) (before last : Block) :
    targets ⟨fs, before.append (.when last .nil)⟩ =
      (targets ⟨.branch before :: fs, last⟩).set (Frame.opsOf fs ++ before.ops).length
        (some (size ⟨.branch before :: fs, last⟩)) ++
        [some (size ⟨.branch before :: fs, last⟩ + 1)] := by
  have hset := set_targets_cons fs (.branch before) last
    (some (size ⟨.branch before :: fs, last⟩))
  rw [Frame.front] at hset
  rw [hset]
  simp [targets, Block.targets_append, Frame.frontTargets, size, ops, Frame.opsOf, Frame.ops,
    Frame.front, Block.targets, Nat.add_assoc]
  omega

theorem targets_choice (fs : List Frame) (before yes last : Block) :
    targets ⟨fs, before.append (.choice yes last .nil)⟩ =
      (targets ⟨.otherwise before yes :: fs, last⟩).set
        (Frame.opsOf fs ++ (before.ops ++ .branch :: yes.ops)).length
        (some (size ⟨.otherwise before yes :: fs, last⟩)) ++
        [some (size ⟨.otherwise before yes :: fs, last⟩ + 1)] := by
  have hset := set_targets_cons fs (.otherwise before yes) last
    (some (size ⟨.otherwise before yes :: fs, last⟩))
  rw [Frame.front] at hset
  rw [hset]
  simp [targets, Block.targets_append, Frame.frontTargets, size, ops, Frame.opsOf, Frame.ops,
    Frame.front, Block.targets, Nat.add_assoc, Nat.add_comm 1]
  omega

theorem targets_loop_close (fs : List Frame) (before condition last : Block) :
    targets ⟨fs, before.append (.loop condition last .nil)⟩ =
      (targets ⟨.body before condition :: fs, last⟩).set
        (Frame.opsOf fs ++ (before.ops ++ .loop :: condition.ops)).length
        (some (size ⟨.body before condition :: fs, last⟩ + 1)) ++
        [some ((Frame.opsOf fs).length + before.size)] := by
  have hset := set_targets_cons fs (.body before condition) last
    (some (size ⟨.body before condition :: fs, last⟩ + 1))
  rw [Frame.front] at hset
  rw [hset]
  simp [targets, Block.targets_append, Frame.frontTargets, size, ops, Frame.opsOf, Frame.ops,
    Frame.front, Block.targets, Nat.add_assoc, Nat.add_comm 1]
  omega

/-! ## One visit -/

theorem linker_eq {r : Reader} {ts : List (Option Nat)} {o : List Nat} (ht : r.targets = ts)
    (ho : r.opened = o) : r.linker code = { code := Instr.aimAll code ts, opened := o } := by
  rw [linker, ht, ho]

/-- The opener of the innermost block, as the linker finds it. -/
theorem instrAt_opener (h : code.toList.map Instr.op = ops ⟨f :: fs, last⟩ ++ op :: rest) :
    ∃ i : Instr, i.op = f.opener ∧
      (linker ⟨f :: fs, last⟩ code).instrAt (Frame.opsOf fs ++ f.front).length
        = i.aim (f.kept (Frame.opsOf fs).length) := by
  obtain ⟨i, hi, hat⟩ := instrAt_linker (r := ⟨f :: fs, last⟩) (getElem?_opener h)
  refine ⟨i, hi, hat.trans ?_⟩
  rw [targets_cons, List.getElem?_append_right (by simp)]
  simp

/-- What visiting the word `op` after those of `r` should do. -/
def visited (r : Reader) (code : Array Instr) (op : Op) : Linker × Option StructureError :=
  match r.read? op with
  | some t => (t.linker code, none)
  | none => (r.linker code, some (r.mismatch op))

theorem visited_eq {r t : Reader} (h : r.read? op = some t) :
    r.visited code op = (t.linker code, none) := by
  rw [visited, h]

theorem visitOtherwise_linker {r : Reader}
    (h : code.toList.map Instr.op = r.ops ++ .otherwise :: rest) :
    (r.linker code).visitOtherwise r.size = r.visited code .otherwise := by
  obtain ⟨fs, last⟩ := r
  cases fs with
  | nil => rfl
  | cons f fs =>
    have hop := instrAt_linker_op (r := ⟨f :: fs, last⟩) (getElem?_opener h)
    cases f with
    | branch before =>
      rw [Linker.visitOtherwise_branch rfl hop, visited_eq rfl, linker,
        Instr.aimAll_set _ _ _ _ (opener_lt_length fs (.branch before) last),
        ← Instr.aimAll_append_none]
      refine congrArg (·, none) (linker_eq (targets_otherwise fs before last) ?_).symm
      simp [opened, Frame.addresses, size, ops, Frame.opsOf, Frame.ops, Frame.front]
    | otherwise | loop | body =>
      rw [Linker.visitOtherwise_wrong rfl (by rw [hop]; simp [Frame.opener]), hop]
      rfl

theorem visitBody_linker {r : Reader}
    (h : code.toList.map Instr.op = r.ops ++ .body :: rest) :
    (r.linker code).visitBody r.size = r.visited code .body := by
  obtain ⟨fs, last⟩ := r
  cases fs with
  | nil => rfl
  | cons f fs =>
    have hop := instrAt_linker_op (r := ⟨f :: fs, last⟩) (getElem?_opener h)
    cases f with
    | loop before =>
      rw [Linker.visitBody_loop rfl hop, visited_eq rfl, linker,
        Instr.aimAll_append_some _ _ _ (length_targets _).symm]
      refine congrArg (·, none) (linker_eq (targets_body fs before last) ?_).symm
      simp [opened, Frame.addresses, size, ops, Frame.opsOf, Frame.ops, Frame.front]
    | otherwise | branch | body =>
      rw [Linker.visitBody_wrong rfl (by rw [hop]; simp [Frame.opener]), hop]
      rfl

theorem visitClose_linker {r : Reader}
    (h : code.toList.map Instr.op = r.ops ++ .close :: rest) :
    (r.linker code).visitClose r.size = r.visited code .close := by
  obtain ⟨fs, last⟩ := r
  cases fs with
  | nil => rfl
  | cons f fs =>
    have hlt := opener_lt_length fs f last
    have hlen : size ⟨f :: fs, last⟩ = (targets ⟨f :: fs, last⟩).length :=
      (length_targets _).symm
    obtain ⟨i, hi, hat⟩ := instrAt_opener h
    have hop := congrArg Instr.op hat
    rw [Instr.aim_op, hi] at hop
    cases f with
    | branch before =>
      rw [Linker.visitClose_choice rfl (.inl hop), visited_eq rfl, linker,
        Instr.aimAll_set _ _ _ _ hlt,
        Instr.aimAll_append_some _ _ _ (hlen.trans List.length_set.symm)]
      exact congrArg (·, none) (linker_eq (targets_when fs before last) rfl).symm
    | otherwise before yes =>
      rw [Linker.visitClose_choice rfl (.inr hop), visited_eq rfl, linker,
        Instr.aimAll_set _ _ _ _ hlt,
        Instr.aimAll_append_some _ _ _ (hlen.trans List.length_set.symm)]
      exact congrArg (·, none) (linker_eq (targets_choice fs before yes last) rfl).symm
    | loop before =>
      rw [Linker.visitClose_loop rfl hop]
      rfl
    | body before condition =>
      -- the `END` takes over the address that `DO` has kept, and only then is `DO` aimed
      rw [Linker.visitClose_body rfl hop, hat, visited_eq rfl, linker, Frame.kept, Instr.aim,
        Instr.aimAll_append_some _ _ _ hlen,
        Instr.aimAll_set _ _ _ _ (Nat.lt_of_lt_of_le hlt (by simp)),
        List.set_append_left _ _ hlt]
      exact congrArg (·, none) (linker_eq (targets_loop_close fs before condition last) rfl).symm

/-- **One visit of the linker reads one word.** -/
theorem visit_linker {r : Reader} (h : code.toList.map Instr.op = r.ops ++ op :: rest) :
    (r.linker code).visit r.size = r.visited code op := by
  have hop : ((r.linker code).instrAt r.size).op = op := instrAt_linker_op (getElem?_next h)
  by_cases hw : op.isBlockWord = false
  · rw [visited_eq (read?_plain r hw), linker_eq (targets_ofOp r.frames r.last hw) rfl,
      Instr.aimAll_append_none]
    revert hw
    rw [Linker.visit, hop]
    cases op <;> first | (intro _; rfl) | (intro hw; cases hw)
  · rw [Linker.visit, hop]
    cases op with
    | branch =>
      rw [visited_eq rfl, linker_eq (targets_branch r.frames r.last) rfl,
        Instr.aimAll_append_none]
      rfl
    | loop =>
      rw [visited_eq rfl, linker_eq (targets_loop r.frames r.last) rfl,
        Instr.aimAll_append_none]
      rfl
    | otherwise => exact visitOtherwise_linker h
    | body => exact visitBody_linker h
    | close => exact visitClose_linker h
    | _ => exact absurd rfl hw

/-! ## The walk -/

/-- What visiting the words `c` after those of `r` should do. -/
def walked (r : Reader) (code : Array Instr) (c : List Op) : Linker × Option StructureError :=
  match r.readAll c with
  | .ok t => (t.linker code, none)
  | .error (t, op) => (t.linker code, some (t.mismatch op))

/-- **The walk of the linker reads all words.** -/
theorem walk_linker {r : Reader} {c : List Op} (h : code.toList.map Instr.op = r.ops ++ c) :
    (r.linker code).walk (List.range' r.size c.length) = r.walked code c := by
  induction c generalizing r with
  | nil => rfl
  | cons op c ih =>
    rw [List.length_cons, List.range'_succ, Linker.walk, visit_linker h, visited, walked, readAll]
    cases ht : r.read? op with
    | none => rfl
    | some t =>
      have hops := ops_read? ht
      have hsize : t.size = r.size + 1 := by
        rw [size, hops, List.length_append]
        rfl
      rw [← hsize]
      exact ih (by rw [h, hops, List.append_assoc, List.singleton_append])

end Reader

open Reader in
/-- **Linking a program is reading its words.**  A program whose words are all read, with no block
left open, is linked; any other comes back with the complaint, and with what the words that could
be read say about its jumps. -/
theorem Program.link_eq (p : Program) (hp : p.linked = false) :
    p.link =
      match readAll {} p.ops with
      | .ok ⟨[], last⟩ =>
        ({ p with code := Instr.aimAll p.code (last.targets 0), linked := true }, none)
      | .ok ⟨f :: fs, last⟩ =>
        ({ p with code := Instr.aimAll p.code (targets ⟨f :: fs, last⟩) },
          some (.structural ⟨(Frame.opsOf fs ++ f.front).length, f.opener, .unterminated⟩))
      | .error (r, op) =>
        ({ p with code := Instr.aimAll p.code r.targets }, some (.structural (r.mismatch op))) := by
  have hstart : linker {} p.code = { code := p.code } := by
    rw [linker_eq rfl rfl]
    exact congrArg (Linker.mk · []) (Instr.aimAll_nil _)
  have hwalk : Linker.walk { code := p.code } (List.range p.code.size)
      = walked {} p.code p.ops := by
    have h : (linker {} p.code).walk _ = walked {} p.code p.ops := walk_linker rfl
    rw [hstart, Program.length_ops] at h
    rw [← h, List.range_eq_range']
    rfl
  simp only [Program.link, hp, Bool.false_eq_true, if_false, Linker.finish, hwalk, walked]
  cases hread : readAll {} p.ops with
  | error e => rfl
  | ok r =>
    obtain ⟨_ | ⟨f, fs⟩, last⟩ := r
    · rfl
    · have hops : p.ops = Reader.ops ⟨f :: fs, last⟩ ++ [] := by
        rw [ops_of_readAll hread, List.append_nil]
        rfl
      have hop := instrAt_linker_op (r := ⟨f :: fs, last⟩) (getElem?_opener hops)
      simp only [linker, opened, Frame.addresses] at hop ⊢
      rw [hop]

/-- A program that holds the words of a block is linked to the targets of the block. -/
theorem Program.link_of_ops_eq {p : Program} {b : Block} (hp : p.linked = false)
    (hops : p.ops = b.ops) :
    p.link = ({ p with code := Instr.aimAll p.code (b.targets 0), linked := true }, none) := by
  rw [p.link_eq hp, hops, Reader.readAll_ops]
  simp [Block.append]

end StackLang

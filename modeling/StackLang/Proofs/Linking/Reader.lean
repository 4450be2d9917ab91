import StackLang.Proofs.Linking.Targets

/-!
# Reading words into blocks

The first words of a program are, as far as they pair up, some blocks that have been begun and a
last block that stands inside all of them.  A `Reader` holds just that: a `Frame` for every block
that has been begun, innermost first, and the block that has been read since.  `Reader.read?` takes
in one more word, and `Reader.readAll` the words of a program up to the first that does not fit.

Nothing here knows about addresses kept on a stack or about immediates written in place.  What a
reader has read, `Reader.ops`, where its blocks were begun, `Reader.opened`, and where its words go
to, `Reader.targets`, are all computed from the frames, which is what makes them easy to follow.

* `readAll_ops`: the words of a whole block are always read, and end up behind the last block.
* `ops_of_readAll`: a reader holds the words that it has read, in their order.
* `ops_prefix_complete`: whatever has been read is the beginning of a whole block.
-/

set_option autoImplicit false

namespace StackLang

/-- A block that has been begun, with what stands before it and the part of it that is done. -/
inductive Frame where
  /-- `before IF` -/
  | branch (before : Block)
  /-- `before IF yes ELSE` -/
  | otherwise (before yes : Block)
  /-- `before WHILE` -/
  | loop (before : Block)
  /-- `before WHILE condition DO` -/
  | body (before condition : Block)

namespace Frame

/-- The last word of a frame, which is the one that a later word has to close. -/
def opener : Frame → Op
  | branch _ => .branch
  | otherwise _ _ => .otherwise
  | loop _ => .loop
  | body _ _ => .body

/-- The words of a frame before its last one. -/
def front : Frame → List Op
  | branch before => before.ops
  | otherwise before yes => before.ops ++ .branch :: yes.ops
  | loop before => before.ops
  | body before condition => before.ops ++ .loop :: condition.ops

/-- The words of a frame. -/
def ops (f : Frame) : List Op := f.front ++ [f.opener]

/-- Where the words of a frame at address `a` before its last one go to. -/
def frontTargets (a : Nat) : Frame → List (Option Nat)
  | branch before => before.targets a
  | otherwise before yes =>
    let e := a + before.size + 1 + yes.size
    before.targets a ++ some (e + 1) :: yes.targets (a + before.size + 1)
  | loop before => before.targets a
  | body before condition =>
    before.targets a ++ none :: condition.targets (a + before.size + 1)

/-- What the last word of a frame at address `a` keeps while the block is open: `DO` has the address
of its `WHILE`, for the `END` to come. -/
def kept (a : Nat) : Frame → Option Nat
  | body before _ => some (a + before.size)
  | _ => none

@[simp] theorem length_frontTargets (a : Nat) (f : Frame) :
    (f.frontTargets a).length = f.front.length := by
  cases f <;> simp [frontTargets, front]

/-- The words of frames, innermost first. -/
def opsOf : List Frame → List Op
  | [] => []
  | f :: fs => opsOf fs ++ f.ops

/-- The addresses of the last words of frames. -/
def addresses : List Frame → List Nat
  | [] => []
  | f :: fs => (opsOf fs ++ f.front).length :: addresses fs

/-- Where the words of frames go to, as far as that is known. -/
def targetsOf : List Frame → List (Option Nat)
  | [] => []
  | f :: fs => targetsOf fs ++ f.frontTargets (opsOf fs).length ++ [f.kept (opsOf fs).length]

@[simp] theorem length_targetsOf (fs : List Frame) :
    (targetsOf fs).length = (opsOf fs).length := by
  induction fs with
  | nil => rfl
  | cons f fs ih => simp [targetsOf, opsOf, ih, ops]

end Frame

/-- The blocks that have been begun, innermost first, and the block read since the last of them. -/
structure Reader where
  frames : List Frame := []
  last : Block := .nil

namespace Reader

/-- The words that have been read. -/
def ops (r : Reader) : List Op := Frame.opsOf r.frames ++ r.last.ops

/-- The number of words that have been read, which is the address of the next one. -/
def size (r : Reader) : Nat := r.ops.length

/-- The addresses where the unfinished blocks were opened, innermost first. -/
def opened (r : Reader) : List Nat := Frame.addresses r.frames

/-- Where the words that have been read go to, as far as that is known. -/
def targets (r : Reader) : List (Option Nat) :=
  Frame.targetsOf r.frames ++ r.last.targets (Frame.opsOf r.frames).length

@[simp] theorem length_targets (r : Reader) : r.targets.length = r.size := by
  simp [targets, size, ops]

/-! ## One word more -/

/-- Read one more word, if it fits. -/
def read? (r : Reader) (op : Op) : Option Reader :=
  match op, r.frames with
  | .branch, fs => some ⟨.branch r.last :: fs, .nil⟩
  | .loop, fs => some ⟨.loop r.last :: fs, .nil⟩
  | .otherwise, .branch before :: fs => some ⟨.otherwise before r.last :: fs, .nil⟩
  | .otherwise, _ => none
  | .body, .loop before :: fs => some ⟨.body before r.last :: fs, .nil⟩
  | .body, _ => none
  | .close, .branch before :: fs => some ⟨fs, before.append (.when r.last .nil)⟩
  | .close, .otherwise before yes :: fs => some ⟨fs, before.append (.choice yes r.last .nil)⟩
  | .close, .body before condition :: fs =>
    some ⟨fs, before.append (.loop condition r.last .nil)⟩
  | .close, _ => none
  | op, fs => some ⟨fs, r.last.append (.ofOp op)⟩

theorem read?_plain (r : Reader) {op : Op} (h : op.isBlockWord = false) :
    r.read? op = some ⟨r.frames, r.last.append (.ofOp op)⟩ := by
  cases op <;> first | rfl | cases h

theorem ops_read? {r t : Reader} {op : Op} (h : r.read? op = some t) : t.ops = r.ops ++ [op] := by
  obtain ⟨fs, last⟩ := r
  by_cases hop : op.isBlockWord = false
  · rw [read?_plain _ hop, Option.some_inj] at h
    simp [← h, ops, Block.ofOp_plain hop, Block.ops]
  · rcases op <;> first | exact absurd rfl hop | skip
    all_goals
      rcases fs with _ | ⟨f | f | f | f, fs⟩ <;> simp only [read?] at h <;> cases h
    all_goals simp [ops, Frame.opsOf, Frame.ops, Frame.front, Frame.opener, Block.ops]

/-- A word that does not fit is one that should close a block. -/
theorem closer_of_read? {r : Reader} {op : Op} (h : r.read? op = none) :
    op = .otherwise ∨ op = .close ∨ op = .body := by
  cases op with
  | otherwise => exact .inl rfl
  | close => exact .inr (.inl rfl)
  | body => exact .inr (.inr rfl)
  | _ => simp [read?] at h

/-! ## The words of a program -/

/-- Read words in turn.  A word that does not fit is returned with what was read before it. -/
def readAll : Reader → List Op → Except (Reader × Op) Reader
  | r, [] => .ok r
  | r, op :: rest =>
    match r.read? op with
    | some t => t.readAll rest
    | none => .error (r, op)

theorem readAll_cons {r t : Reader} {op : Op} (h : r.read? op = some t) (rest : List Op) :
    r.readAll (op :: rest) = t.readAll rest := by
  rw [readAll, h]

theorem readAll_append {r t : Reader} {c : List Op} (h : r.readAll c = .ok t) (d : List Op) :
    r.readAll (c ++ d) = t.readAll d := by
  induction c generalizing r with
  | nil => cases h; rfl
  | cons op c ih =>
    rw [List.cons_append]
    cases hr : r.read? op with
    | none => rw [readAll, hr] at h; cases h
    | some r' =>
      rw [readAll_cons hr] at h ⊢
      exact ih h

theorem readAll_append_error {r : Reader} {e : Reader × Op} {c : List Op}
    (h : r.readAll c = .error e) (d : List Op) : r.readAll (c ++ d) = .error e := by
  induction c generalizing r with
  | nil => cases h
  | cons op c ih =>
    rw [List.cons_append]
    cases hr : r.read? op with
    | none => rw [readAll, hr] at h ⊢; exact h
    | some r' =>
      rw [readAll_cons hr] at h ⊢
      exact ih h

/-- A reader holds the words that it has read. -/
theorem ops_of_readAll {r t : Reader} {c : List Op} (h : r.readAll c = .ok t) :
    t.ops = r.ops ++ c := by
  induction c generalizing r with
  | nil => cases h; simp
  | cons op c ih =>
    cases hr : r.read? op with
    | none => rw [readAll, hr] at h; cases h
    | some r' =>
      rw [readAll_cons hr] at h
      rw [ih h, ops_read? hr, List.append_assoc, List.singleton_append]

/-- Where reading stops, the words before have been read and the next one does not fit. -/
theorem exists_of_readAll_error {r t : Reader} {op : Op} {c : List Op}
    (h : r.readAll c = .error (t, op)) :
    ∃ c₁ c₂, c = c₁ ++ op :: c₂ ∧ r.readAll c₁ = .ok t ∧ t.read? op = none := by
  induction c generalizing r with
  | nil => cases h
  | cons o c ih =>
    cases hr : r.read? o with
    | none =>
      rw [readAll, hr] at h
      cases h
      exact ⟨[], c, rfl, rfl, hr⟩
    | some r' =>
      rw [readAll_cons hr] at h
      obtain ⟨c₁, c₂, rfl, h₁, h₂⟩ := ih h
      exact ⟨o :: c₁, c₂, rfl, by rw [readAll_cons hr]; exact h₁, h₂⟩

/-! ## Whole blocks -/

/-- **The words of a whole block are always read.**  They end up behind the last block. -/
theorem readAll_ops (fs : List Frame) (last b : Block) :
    readAll ⟨fs, last⟩ b.ops = .ok ⟨fs, last.append b.erase⟩ := by
  induction b generalizing fs last with
  | nil => simp [Block.ops, Block.erase, readAll]
  | plain i rest ih =>
    rw [Block.ops, readAll_cons (read?_plain _ i.isPlain), ih, Block.append_assoc, Block.erase]
  | when yes rest ihy ih =>
    rw [Block.ops, List.cons_append, readAll_cons (t := ⟨.branch last :: fs, .nil⟩) rfl,
      readAll_append (ihy _ _),
      readAll_cons (t := ⟨fs, last.append (.when yes.erase .nil)⟩) rfl, ih, Block.append_assoc]
    rfl
  | choice yes no rest ihy ihn ih =>
    rw [Block.ops, List.cons_append, List.cons_append, List.append_assoc,
      readAll_cons (t := ⟨.branch last :: fs, .nil⟩) rfl, readAll_append (ihy _ _),
      List.cons_append, readAll_cons (t := ⟨.otherwise last yes.erase :: fs, .nil⟩) rfl,
      readAll_append (ihn _ _),
      readAll_cons (t := ⟨fs, last.append (.choice yes.erase no.erase .nil)⟩) rfl, ih,
      Block.append_assoc]
    rfl
  | loop condition body rest ihc ihb ih =>
    rw [Block.ops, List.cons_append, List.cons_append, List.append_assoc,
      readAll_cons (t := ⟨.loop last :: fs, .nil⟩) rfl, readAll_append (ihc _ _),
      List.cons_append, readAll_cons (t := ⟨.body last condition.erase :: fs, .nil⟩) rfl,
      readAll_append (ihb _ _),
      readAll_cons (t := ⟨fs, last.append (.loop condition.erase body.erase .nil)⟩) rfl, ih,
      Block.append_assoc]
    rfl

/-- The shortest way to finish all blocks: `END` for `IF`, `ELSE` and `DO`, and `DO END` for
`WHILE`. -/
def complete : List Frame → Block → Block
  | [], b => b
  | .branch before :: fs, b => complete fs (before.append (.when b .nil))
  | .otherwise before yes :: fs, b => complete fs (before.append (.choice yes b .nil))
  | .loop before :: fs, b => complete fs (before.append (.loop b .nil .nil))
  | .body before condition :: fs, b => complete fs (before.append (.loop condition b .nil))

/-- **Whatever has been read is the beginning of a whole block.** -/
theorem ops_prefix_complete (fs : List Frame) (b : Block) :
    Frame.opsOf fs ++ b.ops <+: (complete fs b).ops := by
  induction fs generalizing b with
  | nil => simp [Frame.opsOf, complete]
  | cons f fs ih =>
    cases f <;> refine List.IsPrefix.trans ?_ (ih _) <;>
      simp [Frame.opsOf, Frame.ops, Frame.front, Frame.opener, Block.ops,
        List.prefix_append_right_inj]

end Reader

end StackLang

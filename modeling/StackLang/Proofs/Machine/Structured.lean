import StackLang.Proofs.Linking.Walk
import StackLang.Proofs.Machine.Step
import StackLang.Proofs.Placement

/-!
# Linked code means what its blocks mean

`Block.Runs` gives a block its meaning with no address in sight; the machine has nothing but
addresses.  The two agree on linked code, wherever in a larger program the code of the block stands.

* `Block.Runs.arrives`: what the meaning says, the machine does.  A block that is done leaves the
  machine behind its code, and one that lacks an operand leaves it at a fault.
* `Block.runs_or_running`: the machine does nothing else.  Where the meaning has no end, the machine
  is still running after any number of instructions.

Both only look at the code of the block, so a part of a block is a case of the same statement.  The
second is by induction on the number of instructions, with no case for loops of its own: going back
to the start of a loop has used up instructions.
-/

set_option autoImplicit false

namespace StackLang

open Machine

/-- The code holds these instructions from address `a` on. -/
abbrev CodeAt (code : Array Instr) : Nat → List Instr → Prop :=
  Aligned fun a i => code[a]? = some i

namespace Block

variable {code : Array Instr} {a z n : Nat} {s t u : Store} {i : Instr} {op : Op} {x : Int64}
  {st : List Int64} {o : String} {e : Ending}

/-! ## From one address to another -/

/-- The machine at `a` with the store `s` gets to `z` with the store `t`. -/
def Goes (code : Array Instr) (a : Nat) (s : Store) (z : Nat) (t : Store) : Prop :=
  ∀ n, ∃ k n', stepTimes k (ofStore code a s n) = some (ofStore code z t n')

theorem Goes.refl : Goes code a s a s := fun n => ⟨0, n, rfl⟩

theorem Goes.trans {y : Nat} (h₁ : Goes code a s y t) (h₂ : Goes code y t z u) :
    Goes code a s z u := by
  intro n
  obtain ⟨k₁, n₁, hk₁⟩ := h₁ n
  obtain ⟨k₂, n₂, hk₂⟩ := h₂ n₁
  exact ⟨k₁ + k₂, n₂, by rw [stepTimes_add, hk₁]; exact hk₂⟩

theorem Goes.of_step
    (h : ∀ n, (ofStore code a s n).step = (ofStore code z t (n + 1), none)) :
    Goes code a s z t := fun n => ⟨1, n + 1, stepTimes_succ (h n) 0⟩

theorem goes_apply (hi : code[a]? = some i) (h : s.apply i = some t) :
    Goes code a s (a + 1) t := Goes.of_step fun _ => step_apply hi h

theorem goes_loop (hi : code[a]? = some { op := .loop }) : Goes code a s (a + 1) s :=
  Goes.of_step fun _ => step_loop hi

theorem goes_jump (hsize : code.size < 0x8000000000000000) (hz : z ≤ code.size)
    (hop : op = .otherwise ∨ op = .close) (hi : code[a]? = some (jump op z)) :
    Goes code a s z s := Goes.of_step fun _ => step_jump hsize hz hop hi

theorem goes_zero (hsize : code.size < 0x8000000000000000) (hz : z ≤ code.size)
    (hop : op = .branch ∨ op = .body) (hi : code[a]? = some (jump op z)) :
    Goes code a ⟨0 :: st, o⟩ z ⟨st, o⟩ := Goes.of_step fun _ => step_zero hsize hz hop hi

theorem goes_nonzero (hx : x ≠ 0) (hop : op = .branch ∨ op = .body)
    (hi : code[a]? = some (jump op z)) :
    Goes code a ⟨x :: st, o⟩ (a + 1) ⟨st, o⟩ := Goes.of_step fun _ => step_nonzero hx hop hi

/-- The machine at `a` with the store `s` gets to `z` if the ending is a store, and runs into a
missing operand, with nothing more written, if it is not. -/
def Arrives (code : Array Instr) (a : Nat) (s : Store) (z : Nat) : Ending → Prop
  | .done t => Goes code a s z t
  | .underflow o =>
    ∀ n, ∃ m f, (ofStore code a s n).Ends m (.faulted f) ∧ f.cause = .stackUnderflow ∧
      m.out = .buffer o

theorem Goes.arrives {y : Nat} (h₁ : Goes code a s y t) (h₂ : Arrives code y t z e) :
    Arrives code a s z e := by
  cases e with
  | done u => exact Goes.trans h₁ h₂
  | underflow o =>
    intro n
    obtain ⟨k, n', hk⟩ := h₁ n
    obtain ⟨m, f, hm, hf⟩ := h₂ n'
    exact ⟨m, f, ends_of_stepTimes hk hm, hf⟩

/-- Where a part of the code runs into a missing operand, all of it does. -/
theorem Arrives.stop {y : Nat} (h : Arrives code a s y (.underflow o)) :
    Arrives code a s z (.underflow o) := h

theorem arrives_empty (hop : op = .branch ∨ op = .body) {y : Nat}
    (hi : code[a]? = some (jump op y)) : Arrives code a ⟨[], o⟩ z (.underflow o) :=
  fun _ => ⟨_, _, ends_of_fault (step_empty hop hi), rfl, rfl⟩

/-! ## The code of a block -/

@[simp] theorem length_linkedAt (a : Nat) (b : Block) : (b.linkedAt a).length = b.size := by
  simp [linkedAt_eq]

theorem codeAt_when {yes rest : Block} (h : CodeAt code a ((when yes rest).linkedAt a)) :
    code[a]? = some (jump .branch (a + 1 + yes.size)) ∧
      CodeAt code (a + 1) (yes.linkedAt (a + 1)) ∧
      code[a + 1 + yes.size]? = some (jump .close (a + 1 + yes.size + 1)) ∧
      CodeAt code (a + 1 + yes.size + 1) (rest.linkedAt (a + 1 + yes.size + 1)) := by
  simpa [linkedAt] using h

theorem codeAt_choice {yes no rest : Block}
    (h : CodeAt code a ((choice yes no rest).linkedAt a)) :
    code[a]? = some (jump .branch (a + 1 + yes.size + 1)) ∧
      CodeAt code (a + 1) (yes.linkedAt (a + 1)) ∧
      code[a + 1 + yes.size]? = some (jump .otherwise (a + 1 + yes.size + 1 + no.size)) ∧
      CodeAt code (a + 1 + yes.size + 1) (no.linkedAt (a + 1 + yes.size + 1)) ∧
      code[a + 1 + yes.size + 1 + no.size]?
        = some (jump .close (a + 1 + yes.size + 1 + no.size + 1)) ∧
      CodeAt code (a + 1 + yes.size + 1 + no.size + 1)
        (rest.linkedAt (a + 1 + yes.size + 1 + no.size + 1)) := by
  simpa [linkedAt] using h

theorem codeAt_loop {condition body rest : Block}
    (h : CodeAt code a ((loop condition body rest).linkedAt a)) :
    code[a]? = some { op := .loop } ∧
      CodeAt code (a + 1) (condition.linkedAt (a + 1)) ∧
      code[a + 1 + condition.size]?
        = some (jump .body (a + 1 + condition.size + 1 + body.size + 1)) ∧
      CodeAt code (a + 1 + condition.size + 1) (body.linkedAt (a + 1 + condition.size + 1)) ∧
      code[a + 1 + condition.size + 1 + body.size]? = some (jump .close a) ∧
      CodeAt code (a + 1 + condition.size + 1 + body.size + 1)
        (rest.linkedAt (a + 1 + condition.size + 1 + body.size + 1)) := by
  simpa [linkedAt] using h

theorem lt_size (h : code[a]? = some i) : a < code.size := by
  obtain ⟨hlt, -⟩ := Array.getElem?_eq_some_iff.1 h
  exact hlt

/-! ## What the meaning says, the machine does -/

/-- **The machine arrives where the meaning of a block ends.** -/
theorem Runs.arrives {b : Block} (h : Runs b s e) (hsize : code.size < 0x8000000000000000) :
    ∀ {a : Nat}, CodeAt code a (b.linkedAt a) → Arrives code a s (a + b.size) e := by
  induction h with
  | nil => exact fun _ => Goes.refl
  | @plain i rest s t e happ _ ih =>
    intro a hcode
    rw [size_plain, show a + (rest.size + 1) = a + 1 + rest.size by omega]
    exact (goes_apply hcode.1 happ).arrives (ih hcode.2)
  | @plainUnder i rest s hd happ =>
    intro a hcode n
    obtain ⟨m, f, hstep, hf⟩ := step_apply_none hcode.1 i.isPlain hd happ
    exact ⟨m, f, ends_of_fault hstep, hf⟩
  | whenUnder =>
    intro a hcode
    exact arrives_empty (.inl rfl) (codeAt_when hcode).1
  | @whenZero yes rest st o e _ ih =>
    intro a hcode
    obtain ⟨hi, -, hz, hrest⟩ := codeAt_when hcode
    have hlt := lt_size hz
    rw [size_when, show a + (yes.size + rest.size + 2) = a + 1 + yes.size + 1 + rest.size by omega]
    refine (goes_zero hsize (Nat.le_of_lt hlt) (.inl rfl) hi).arrives ?_
    exact (goes_jump hsize hlt (.inr rfl) hz).arrives (ih hrest)
  | @whenYes yes rest x st o t e hx _ _ ihy ih =>
    intro a hcode
    obtain ⟨hi, hyes, hz, hrest⟩ := codeAt_when hcode
    rw [size_when, show a + (yes.size + rest.size + 2) = a + 1 + yes.size + 1 + rest.size by omega]
    refine (goes_nonzero hx (.inl rfl) hi).arrives ?_
    refine Goes.arrives (ihy hyes) ?_
    exact (goes_jump hsize (lt_size hz) (.inr rfl) hz).arrives (ih hrest)
  | whenStop hx _ ihy =>
    intro a hcode
    obtain ⟨hi, hyes, -, -⟩ := codeAt_when hcode
    exact (goes_nonzero hx (.inl rfl) hi).arrives (ihy hyes).stop
  | choiceUnder =>
    intro a hcode
    exact arrives_empty (.inl rfl) (codeAt_choice hcode).1
  | @choiceYes yes no rest x st o t e hx _ _ ihy ih =>
    intro a hcode
    obtain ⟨hi, hyes, he, -, hz, hrest⟩ := codeAt_choice hcode
    have hlt := lt_size hz
    rw [size_choice, show a + (yes.size + no.size + rest.size + 3)
      = a + 1 + yes.size + 1 + no.size + 1 + rest.size by omega]
    refine (goes_nonzero hx (.inl rfl) hi).arrives ?_
    refine Goes.arrives (ihy hyes) ?_
    refine (goes_jump hsize (Nat.le_of_lt hlt) (.inl rfl) he).arrives ?_
    exact (goes_jump hsize hlt (.inr rfl) hz).arrives (ih hrest)
  | choiceYesStop hx _ ihy =>
    intro a hcode
    obtain ⟨hi, hyes, -⟩ := codeAt_choice hcode
    exact (goes_nonzero hx (.inl rfl) hi).arrives (ihy hyes).stop
  | @choiceNo yes no rest st o t e _ _ ihn ih =>
    intro a hcode
    obtain ⟨hi, -, he, hno, hz, hrest⟩ := codeAt_choice hcode
    rw [size_choice, show a + (yes.size + no.size + rest.size + 3)
      = a + 1 + yes.size + 1 + no.size + 1 + rest.size by omega]
    refine (goes_zero hsize (lt_size he) (.inl rfl) hi).arrives ?_
    refine Goes.arrives (ihn hno) ?_
    exact (goes_jump hsize (lt_size hz) (.inr rfl) hz).arrives (ih hrest)
  | choiceNoStop _ ihn =>
    intro a hcode
    obtain ⟨hi, -, he, hno, -⟩ := codeAt_choice hcode
    exact (goes_zero hsize (lt_size he) (.inl rfl) hi).arrives (ihn hno).stop
  | loopStop _ ihc =>
    intro a hcode
    obtain ⟨hw, hcond, -⟩ := codeAt_loop hcode
    exact (goes_loop hw).arrives (ihc hcond).stop
  | loopUnder _ ihc =>
    intro a hcode
    obtain ⟨hw, hcond, hd, -⟩ := codeAt_loop hcode
    refine (goes_loop hw).arrives ?_
    exact Goes.arrives (ihc hcond) (arrives_empty (.inr rfl) hd)
  | @loopEnd condition body rest s st o e _ _ ihc ih =>
    intro a hcode
    obtain ⟨hw, hcond, hd, -, hz, hrest⟩ := codeAt_loop hcode
    rw [size_loop, show a + (condition.size + body.size + rest.size + 3)
      = a + 1 + condition.size + 1 + body.size + 1 + rest.size by omega]
    refine (goes_loop hw).arrives ?_
    refine Goes.arrives (ihc hcond) ?_
    exact (goes_zero hsize (lt_size hz) (.inr rfl) hd).arrives (ih hrest)
  | loopAgain _ hx _ _ ihc ihb ih =>
    intro a hcode
    obtain ⟨hw, hcond, hd, hbody, hz, -⟩ := codeAt_loop hcode
    refine (goes_loop hw).arrives ?_
    refine Goes.arrives (ihc hcond) ?_
    refine (goes_nonzero hx (.inr rfl) hd).arrives ?_
    refine Goes.arrives (ihb hbody) ?_
    exact (goes_jump hsize (Nat.le_of_lt (lt_size hw)) (.inr rfl) hz).arrives (ih hcode)
  | loopBodyStop _ hx _ ihc ihb =>
    intro a hcode
    obtain ⟨hw, hcond, hd, hbody, -⟩ := codeAt_loop hcode
    refine (goes_loop hw).arrives ?_
    refine Goes.arrives (ihc hcond) ?_
    exact (goes_nonzero hx (.inr rfl) hd).arrives (ihb hbody).stop

/-! ## What the meaning does not say, the machine does not do -/

/-- The machine at `a` with the store `s` is still running after `n` instructions. -/
def Running (code : Array Instr) (n a : Nat) (s : Store) : Prop :=
  ∀ c, ((ofStore code a s c).runFor n).2 = .running

theorem running_zero (hi : code[a]? = some i) : Running code 0 a s := by
  intro c
  have hm : (ofStore code a s c).halted = false := not_halted_of_next? (i := i) hi
  rw [runFor, hm]
  rfl

theorem Goes.running (h : Goes code a s z t) (hn : Running code n z t) : Running code n a s := by
  intro c
  obtain ⟨k, c', hk⟩ := h c
  exact running_of_stepTimes hk (hn c')

theorem running_succ (h : ∀ c, (ofStore code a s c).step = (ofStore code z t (c + 1), none))
    (hn : Running code n z t) : Running code (n + 1) a s :=
  fun c => running_of_step (h c) (hn (c + 1))

@[simp] theorem isDefined_plain {i : PlainInstr} {rest : Block} :
    (plain i rest).isDefined = (i.instr.op.isDefined && rest.isDefined) := rfl

@[simp] theorem isDefined_when {yes rest : Block} :
    (when yes rest).isDefined = (yes.isDefined && rest.isDefined) := by
  simp [isDefined, ops, Op.isDefined]

@[simp] theorem isDefined_choice {yes no rest : Block} :
    (choice yes no rest).isDefined = (yes.isDefined && no.isDefined && rest.isDefined) := by
  simp [isDefined, ops, Op.isDefined, Bool.and_assoc]

@[simp] theorem isDefined_loop {condition body rest : Block} :
    (loop condition body rest).isDefined
      = (condition.isDefined && body.isDefined && rest.isDefined) := by
  simp [isDefined, ops, Op.isDefined, Bool.and_assoc]

/-- Where a block is followed by more code, all of it has an end or is still running if the block
is, and what follows it is. -/
theorem runs_or_running_append {b whole : Block} (hsize : code.size < 0x8000000000000000)
    (hcode : CodeAt code a (b.linkedAt a)) (h : (∃ e, Runs b s e) ∨ Running code n a s)
    (hstop : ∀ {o}, Runs b s (.underflow o) → Runs whole t (.underflow o))
    (hdone : ∀ {u}, Runs b s (.done u) →
      (∃ e, Runs whole t e) ∨ Running code n (a + b.size) u) :
    (∃ e, Runs whole t e) ∨ Running code n a s := by
  obtain ⟨u | o, he⟩ | hrun := h
  · exact (hdone he).imp_right (Goes.running (he.arrives hsize hcode))
  · exact .inl ⟨_, hstop he⟩
  · exact .inr hrun

/-- **A block whose meaning has no end keeps the machine running.**  The induction is on the number
of instructions, since the code of a loop is run again with no smaller block to run. -/
theorem runs_or_running (hsize : code.size < 0x8000000000000000) (n : Nat) {b : Block} {a : Nat}
    {s : Store} (hdef : b.isDefined = true) (hcode : CodeAt code a (b.linkedAt a)) :
    (∃ e, Runs b s e) ∨ Running code n a s := by
  induction n generalizing b a s with
  | zero =>
    cases b with
    | nil => exact .inl ⟨_, .nil⟩
    | plain i rest => exact .inr (running_zero hcode.1)
    | «when» yes rest => exact .inr (running_zero hcode.1)
    | choice yes no rest => exact .inr (running_zero hcode.1)
    | loop condition body rest => exact .inr (running_zero hcode.1)
  | succ n ih =>
    obtain ⟨st, o⟩ := s
    cases b with
    | nil => exact .inl ⟨_, .nil⟩
    | plain i rest =>
      rw [isDefined_plain, Bool.and_eq_true] at hdef
      cases happ : Store.apply ⟨st, o⟩ i.instr with
      | none => exact .inl ⟨_, .plainUnder hdef.1 happ⟩
      | some t =>
        exact (ih hdef.2 hcode.2).imp (fun ⟨e, he⟩ => ⟨e, .plain happ he⟩)
          (running_succ fun _ => step_apply hcode.1 happ)
    | «when» yes rest =>
      simp only [isDefined_when, Bool.and_eq_true] at hdef
      obtain ⟨hi, hyes, hz, hrest⟩ := codeAt_when hcode
      have hlt := lt_size hz
      have hend {t : Store} := goes_jump (s := t) hsize hlt (.inr rfl) hz
      obtain _ | ⟨x, st⟩ := st
      · exact .inl ⟨_, .whenUnder⟩
      · by_cases hx : x = 0
        · subst hx
          exact (ih hdef.2 hrest).imp (fun ⟨e, he⟩ => ⟨e, .whenZero he⟩) fun hrun =>
            running_succ (fun _ => step_zero hsize (Nat.le_of_lt hlt) (.inl rfl) hi)
              (hend.running hrun)
        · refine Or.imp_right (running_succ fun _ => step_nonzero hx (.inl rfl) hi) ?_
          refine runs_or_running_append hsize hyes (ih hdef.1 hyes) (.whenStop hx) fun hy => ?_
          exact (ih hdef.2 hrest).imp (fun ⟨e, he⟩ => ⟨e, .whenYes hx hy he⟩) hend.running
    | choice yes no rest =>
      simp only [isDefined_choice, Bool.and_eq_true] at hdef
      obtain ⟨⟨hdy, hdn⟩, hdr⟩ := hdef
      obtain ⟨hi, hyes, he, hno, hz, hrest⟩ := codeAt_choice hcode
      have hlt := lt_size hz
      have hend {t : Store} := goes_jump (s := t) hsize hlt (.inr rfl) hz
      have helse {t : Store} := goes_jump (s := t) hsize (Nat.le_of_lt hlt) (.inl rfl) he
      obtain _ | ⟨x, st⟩ := st
      · exact .inl ⟨_, .choiceUnder⟩
      · by_cases hx : x = 0
        · subst hx
          refine Or.imp_right
            (running_succ fun _ => step_zero hsize (lt_size he) (.inl rfl) hi) ?_
          refine runs_or_running_append hsize hno (ih hdn hno) .choiceNoStop fun hn => ?_
          exact (ih hdr hrest).imp (fun ⟨e, he⟩ => ⟨e, .choiceNo hn he⟩) hend.running
        · refine Or.imp_right (running_succ fun _ => step_nonzero hx (.inl rfl) hi) ?_
          refine runs_or_running_append hsize hyes (ih hdy hyes) (.choiceYesStop hx) fun hy => ?_
          exact (ih hdr hrest).imp (fun ⟨e, he⟩ => ⟨e, .choiceYes hx hy he⟩)
            (helse.trans hend).running
    | loop condition body rest =>
      have hloop := hdef
      simp only [isDefined_loop, Bool.and_eq_true] at hdef
      obtain ⟨⟨hdc, hdb⟩, hdr⟩ := hdef
      obtain ⟨hw, hcond, hd, hbody, hz, hrest⟩ := codeAt_loop hcode
      refine Or.imp_right (running_succ fun _ => step_loop hw) ?_
      refine runs_or_running_append hsize hcond (ih hdc hcond) .loopStop fun {t} hc => ?_
      obtain ⟨_ | ⟨x, st⟩, o⟩ := t
      · exact .inl ⟨_, .loopUnder hc⟩
      · by_cases hx : x = 0
        · subst hx
          exact (ih hdr hrest).imp (fun ⟨e, he⟩ => ⟨e, .loopEnd hc he⟩)
            (goes_zero hsize (lt_size hz) (.inr rfl) hd).running
        · refine Or.imp_right
            (goes_nonzero hx (.inr rfl) hd).running ?_
          refine runs_or_running_append hsize hbody (ih hdb hbody) (.loopBodyStop hc hx)
            fun hb => ?_
          exact (ih hloop hcode).imp (fun ⟨e, he⟩ => ⟨e, .loopAgain hc hx hb he⟩)
            (goes_jump hsize (Nat.le_of_lt (lt_size hw)) (.inr rfl) hz).running

/-! ## Whole programs -/

/-- How a machine stops if the block it runs ends like this. -/
def Ending.Shows : Ending → Machine → Status → Prop
  | .done t, m, st => st = .halted ∧ m.stack = t.stack ∧ m.out = .buffer t.out
  | .underflow o, m, st => ∃ f, st = .faulted f ∧ f.cause = .stackUnderflow ∧ m.out = .buffer o

theorem codeAt_linkedAt (b : Block) : CodeAt (b.linkedAt 0).toArray 0 (b.linkedAt 0) :=
  aligned_iff.2 fun k x hk => by simpa using hk

theorem size_linkedAt (a : Nat) (b : Block) : (b.linkedAt a).toArray.size = b.size := by simp

theorem ends_of_runs {b : Block} (hsize : b.size < 0x8000000000000000) (h : Runs b s e) :
    ∃ m st, (ofStore (b.linkedAt 0).toArray 0 s n).Ends m st ∧ e.Shows m st := by
  have harr := h.arrives (by rwa [size_linkedAt]) (codeAt_linkedAt b)
  cases e with
  | done t =>
    obtain ⟨k, n', hk⟩ := harr n
    refine ⟨_, .halted, ends_of_stepTimes hk (ends_of_halted ?_), rfl, rfl, rfl⟩
    simp [halted, ofStore]
  | underflow o =>
    obtain ⟨m, f, hm, hf⟩ := harr n
    exact ⟨m, .faulted f, hm, f, rfl, hf⟩

theorem runs_of_ends {b : Block} {m : Machine} {st : Status} (hdef : b.isDefined = true)
    (hsize : b.size < 0x8000000000000000) (h : (ofStore (b.linkedAt 0).toArray 0 s n).Ends m st) :
    ∃ e, Runs b s e ∧ e.Shows m st := by
  obtain ⟨k, hk⟩ := h.not_running
  obtain ⟨e, he⟩ | hrun :=
    runs_or_running (s := s) (by rwa [size_linkedAt]) k hdef (codeAt_linkedAt b)
  · obtain ⟨m', st', hm', hshows⟩ := ends_of_runs (n := n) hsize he
    obtain ⟨rfl, rfl⟩ := h.unique hm'
    exact ⟨e, he, hshows⟩
  · exact absurd (hrun n) hk

end Block

/-- The code of a block, once linked. -/
theorem Program.link_flatten {p : Program} {b : Block} (hp : p.linked = false)
    (hcode : p.code = b.flatten.toArray) :
    p.link = ({ p with code := (b.linkedAt 0).toArray, linked := true }, none) := by
  rw [p.link_of_ops_eq (b := b) hp (by simp [Program.ops, hcode]), hcode, ← b.aimAll_flatten,
    Array.toArray_toList]

/-- **Linking and running is the meaning of blocks.**  The flat code of any block, of fewer words
than there are addresses, can be linked.  Left to run from an empty stack, and with a sink that
takes everything, the machine halts with the operands and the output that the block ends with, and
only if it does; it stops at a missing operand exactly where the block does; and it stops at no
other fault.  `Machine.run` returns the machine as it stopped. -/
theorem Program.link_run_iff_runs {p : Program} {b : Block} (hdef : b.isDefined = true)
    (hsize : b.size < 0x8000000000000000) (hp : p.linked = false)
    (hcode : p.code = b.flatten.toArray) :
    ∃ q m, p.link = (q, none) ∧ Machine.ofProgram? q (Sink.buffer "") = some m ∧
      (∀ s o, (∃ m', m.Ends m' .halted ∧ m.run = (m', .halted) ∧ m'.stack = s ∧
          m'.out = .buffer o) ↔ b.Runs {} (.done ⟨s, o⟩)) ∧
      (∀ o, (∃ m' f, m.Ends m' (.faulted f) ∧ m.run = (m', .faulted f) ∧
          f.cause = .stackUnderflow ∧ m'.out = .buffer o) ↔ b.Runs {} (.underflow o)) ∧
      ∀ m' f, m.Ends m' (.faulted f) → m.run = (m', .faulted f) ∧ f.cause = .stackUnderflow := by
  refine ⟨_, ofStore (b.linkedAt 0).toArray 0 {} 0, p.link_flatten hp hcode, rfl,
    fun s o => ⟨?_, fun h => ?_⟩, fun o => ⟨?_, fun h => ?_⟩, fun m' f hm => ?_⟩
  · rintro ⟨m', hm, -, rfl, ho⟩
    obtain ⟨⟨s, o'⟩ | _, he, hshows⟩ := Block.runs_of_ends hdef hsize hm
    · obtain ⟨-, rfl, ho'⟩ := hshows
      cases ho.symm.trans ho'
      exact he
    · obtain ⟨f, hf, -⟩ := hshows
      cases hf
  · obtain ⟨m', _, hm, rfl, hs, ho⟩ := Block.ends_of_runs (n := 0) hsize h
    exact ⟨m', hm, hm.run_eq, hs, ho⟩
  · rintro ⟨m', f, hm, -, -, ho⟩
    obtain ⟨_ | o', he, hshows⟩ := Block.runs_of_ends hdef hsize hm
    · cases hshows.1
    · obtain ⟨-, -, -, ho'⟩ := hshows
      cases ho.symm.trans ho'
      exact he
  · obtain ⟨m', _, hm, f, rfl, hf, ho⟩ := Block.ends_of_runs (n := 0) hsize h
    exact ⟨m', f, hm, hm.run_eq, hf, ho⟩
  · obtain ⟨_ | o, -, hshows⟩ := Block.runs_of_ends hdef hsize hm
    · cases hshows.1
    · obtain ⟨f', hf, hcause, -⟩ := hshows
      cases hf
      exact ⟨hm.run_eq, hcause⟩

/-- `PUSH 2 WHILE DUPL DO DUPL DUMP PUSH 1 MINUS END PLUS` counts down, and then lacks an
operand. -/
theorem Program.link_run_countdown :
    ∃ (b : Block) (q : Program) (m m' : Machine) (f : Fault),
      b.flatten.length = 10 ∧ b.isDefined = true ∧
      Program.link { code := b.flatten.toArray } = (q, none) ∧
      Machine.ofProgram? q (Sink.buffer "") = some m ∧ m.Ends m' (.faulted f) ∧
      m.run = (m', .faulted f) ∧ f.cause = .stackUnderflow ∧ m'.out = .buffer "2\n1\n" := by
  let one (op : Op) (h : op.isBlockWord = false) (imm : Int64) (rest : Block) : Block :=
    .plain ⟨{ op, imm }, h⟩ rest
  let body := one .dupl rfl 0 (one .dump rfl 0 (one .push rfl 1 (one .minus rfl 0 .nil)))
  let b := one .push rfl 2 (.loop (one .dupl rfl 0 .nil) body (one .plus rfl 0 .nil))
  have hbody {x : Int64} {o : String} :
      body.Runs ⟨[x], o⟩ (.done ⟨[x - 1], o ++ toString x ++ "\n"⟩) :=
    .plain rfl (.plain rfl (.plain rfl (.plain rfl .nil)))
  have hruns : b.Runs {} (.underflow "2\n1\n") :=
    .plain rfl (.loopAgain (.plain rfl .nil) (by decide) hbody
      (.loopAgain (.plain rfl .nil) (by decide) hbody
        (.loopEnd (.plain rfl .nil) (.plainUnder rfl rfl))))
  obtain ⟨q, m, hq, hm, -, hunder, -⟩ :=
    Program.link_run_iff_runs (p := { code := b.flatten.toArray }) (b := b) rfl (by decide) rfl rfl
  obtain ⟨m', f, hends⟩ := (hunder _).2 hruns
  exact ⟨b, q, m, m', f, rfl, rfl, hq, hm, hends⟩

end StackLang

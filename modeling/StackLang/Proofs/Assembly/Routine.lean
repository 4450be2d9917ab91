import StackLang.Assembly.Routine
import StackLang.Proofs.Assembly.Processor
import StackLang.Proofs.Literal
import StackLang.Proofs.Text.Octets
import StackLang.Machine

/-!
# The routine writes numbers

The routine in front of every compiled program, run from its label to its return.  It makes room for
forty octets, puts a line feed at the end of the text to come, and lays the digits of the magnitude
in front of it, the last digit first.

The division by ten is a multiplication, of which only the upper half of the product is kept
(`toNat_tenth`).  `AtDigits` is what holds each time the loop over the digits is entered: the number
that is left to write, and the text that stands behind the next octet to be laid down.  One pass
takes it from a number to its tenth, or out of the loop (`reaches_pass`), so by induction on the
number the loop lays down all digits (`reaches_digits`).  All addresses are counted from the lower
end of the room and may wrap around; only the offsets are compared.
-/

set_option autoImplicit false

namespace StackLang.Assembly

/-! ## Octets in memory -/

namespace Octets

variable (m : Octets) (a : UInt64) (n : Nat)

theorem region_succ : m.region a (n + 1) = m a :: m.region (a + 1) n := by
  have hshift : ∀ i : Nat, a + UInt64.ofNat (i + 1) = a + 1 + UInt64.ofNat i := by
    intro i
    rw [Nat.add_comm, UInt64.ofNat_add, UInt64.add_assoc]
    rfl
  rw [region, List.range_succ_eq_map, List.map_cons, List.map_map]
  refine congr (congrArg _ ?_) (List.map_congr_left fun i _ => congrArg m (hshift i))
  exact congrArg m (UInt64.add_zero a)

/-- An octet stored in front of a region does not touch it. -/
theorem region_set (b : UInt8) (hn : n < 0x10000000000000000) :
    (m.set a b).region a (n + 1) = b :: m.region (a + 1) n := by
  rw [region_succ, set, if_pos rfl]
  refine congrArg (b :: ·) (List.map_congr_left fun i hi => if_neg fun h => ?_)
  have hlt : i < n := List.mem_range.1 hi
  have htoNat := congrArg UInt64.toNat h
  rw [UInt64.toNat_add, UInt64.toNat_add, UInt64.toNat_ofNat', UInt64.toNat_one] at htoNat
  have ha := a.toNat_lt
  omega

end Octets

namespace Routine

open Processor (reaches_inst)
open StateTransition (Reaches)

/-! ## The number that is left, and its last digit -/

/-- A tenth, as the code computes it with a factor: the upper half of the product, shifted. -/
def tenth (factor x : UInt64) : UInt64 :=
  UInt64.ofNat ((UInt64.ofNat (x.toNat * factor.toNat / UInt64.size)).toNat / Nat.pow 2 3)

/-- The octet of the last digit, as the code computes it from a tenth. -/
def lastDigit (x q : UInt64) : UInt8 :=
  let five := q + UInt64.ofInt 0 + q * UInt64.ofNat 4
  ((x - (five + five)).toUInt32 + (48 : Int64).toUInt64.toUInt32).toUInt64.toUInt8

/-- The factor of the division. -/
def factor : UInt64 := (-3689348814741910323 : Int64).toUInt64

theorem mulHigh_eq {n : Nat} (hn : n < 0x10000000000000000) :
    n * 0xCCCCCCCCCCCCCCCD / 0x10000000000000000 / 8 = n / 10 := by
  omega

/-- **The multiplication divides by ten**, whatever 64 bits it is given. -/
theorem toNat_tenth (x : UInt64) : (tenth factor x).toNat = x.toNat / 10 := by
  have hfactor : factor.toNat = 0xCCCCCCCCCCCCCCCD := by decide
  have hx : x.toNat < 0x10000000000000000 := x.toNat_lt
  have hhigh : x.toNat * 0xCCCCCCCCCCCCCCCD / 0x10000000000000000 < 0x10000000000000000 := by omega
  have htenth : x.toNat / 10 < 0x10000000000000000 := by omega
  have hupper : (UInt64.ofNat (x.toNat * 0xCCCCCCCCCCCCCCCD / UInt64.size)).toNat =
      x.toNat * 0xCCCCCCCCCCCCCCCD / 0x10000000000000000 := UInt64.toNat_ofNat_of_lt' hhigh
  rw [tenth, hfactor, hupper, show Nat.pow 2 3 = 8 from rfl, mulHigh_eq hx]
  exact UInt64.toNat_ofNat_of_lt' htenth

theorem octet_digitChar : ∀ d < 10, Text.octet (Nat.digitChar d) = UInt8.ofNat (d + 48) := by
  decide

theorem lastDigit_eq {x q : UInt64} (hq : q.toNat = x.toNat / 10) :
    lastDigit x q = Text.octet (Nat.digitChar (x.toNat % 10)) := by
  have hx := x.toNat_lt
  have hzero : (UInt64.ofInt 0).toNat = 0 := rfl
  have hfour : (UInt64.ofNat 4).toNat = 4 := rfl
  have hchar : (48 : Int64).toUInt64.toUInt32.toNat = 48 := by decide
  have hfive : (q + UInt64.ofInt 0 + q * UInt64.ofNat 4).toNat = x.toNat / 10 * 5 := by
    rw [UInt64.toNat_add, UInt64.toNat_add, UInt64.toNat_mul, hq, hzero, hfour]
    omega
  rw [octet_digitChar _ (Nat.mod_lt _ (by decide)), lastDigit]
  refine UInt8.toNat_inj.1 ?_
  rw [UInt64.toNat_toUInt8, UInt32.toNat_toUInt64, UInt32.toNat_add, UInt64.toNat_toUInt32,
    UInt64.toNat_sub, UInt64.toNat_add, hfive, hchar, UInt8.toNat_ofNat']
  omega

/-! ## The room for the text -/

/-- The octet at offset `k` of the room that begins at `b`. -/
def cell (b : UInt64) (k : Nat) : UInt64 := b + UInt64.ofNat k

theorem cell_succ (b : UInt64) (k : Nat) : cell b k + 1 = cell b (k + 1) := by
  rw [cell, cell, UInt64.ofNat_add, UInt64.add_assoc]
  rfl

theorem cell_sub_one (b : UInt64) (k : Nat) : cell b (k + 1) - 1 = cell b k := by
  rw [← cell_succ, UInt64.add_sub_cancel]

/-- The distance from a cell to the one behind the text. -/
theorem sub_cell (b : UInt64) {k : Nat} (hk : k ≤ 32) :
    b + UInt64.ofInt 32 + 0 - cell b k = UInt64.ofNat (32 - k) := by
  have hb := b.toNat_lt
  have h32 : (UInt64.ofInt 32).toNat = 32 := rfl
  refine UInt64.toNat_inj.1 ?_
  rw [cell, UInt64.toNat_sub, UInt64.toNat_add, UInt64.toNat_add, UInt64.toNat_add,
    UInt64.toNat_ofNat', UInt64.toNat_ofNat', h32, UInt64.toNat_zero]
  omega

/-- What the routine has not touched yet and what it has written into its room, which begins at `b`:
a text that ends at offset 32.  `v` is the number it was called with, and `before` the memory at
that time. -/
structure Keeps (b v : UInt64) (before : Octets) (text : List UInt8) (m : Routine) : Prop where
  rsp : m.data.regs .rsp = b
  r10 : m.data.regs .r10 = v
  inPlace : m.memory.region (cell b (32 - text.length)) text.length = text
  stores : ∀ a ∈ m.stores, ∃ k < 40, a = cell b k
  frame : ∀ a, a ∉ m.stores → m.memory a = before a
  writes : m.writes = []
  returned : m.returned = false

variable {b v : UInt64} {before : Octets} {text : List UInt8} {m m' m'' : Routine}

/-- An octet more, in front of the text. -/
theorem Keeps.cons (h : Keeps b v before text m) {c : UInt8} (htext : text.length < 32)
    (hrsp : m'.data.regs .rsp = b) (hr10 : m'.data.regs .r10 = v)
    (hmemory : m'.memory = m.memory.set (cell b (31 - text.length)) c)
    (hstores : m'.stores = cell b (31 - text.length) :: m.stores) (hwrites : m'.writes = m.writes)
    (hreturned : m'.returned = false) : Keeps b v before (c :: text) m' where
  rsp := hrsp
  r10 := hr10
  inPlace := by
    rw [hmemory, List.length_cons, show 32 - (text.length + 1) = 31 - text.length by omega,
      Octets.region_set _ _ _ _ (by omega), cell_succ,
      show 31 - text.length + 1 = 32 - text.length by omega, h.inPlace]
  stores := by
    intro a ha
    rw [hstores, List.mem_cons] at ha
    rcases ha with rfl | ha
    · exact ⟨31 - text.length, by omega, rfl⟩
    · exact h.stores a ha
  frame := by
    intro a ha
    rw [hstores, List.mem_cons, not_or] at ha
    rw [hmemory, Octets.set, if_neg ha.1, h.frame a ha.2]
  writes := hwrites.trans h.writes
  returned := hreturned

/-! ## Stretches of code -/

/-- The routine as it stands in a text, with any lines behind it. -/
def inText (rest : List Item) : List Item := header ++ dumpRoutine ++ rest

variable {leave : Routine → Registers} {rest : List Item}

theorem labelAt?_dump (rest : List Item) : labelAt? (inText rest) .dump = some 3 := rfl

theorem labelAt?_digits (rest : List Item) : labelAt? (inText rest) .digits = some 12 := rfl

theorem labelAt?_write (rest : List Item) : labelAt? (inText rest) .write = some 40 := rfl

/-- A jump that is taken unless the last result was negative. -/
theorem reaches_jumpNotSign (leave : Routine → Registers) (rest : List Item) {l : Label} {z : Nat}
    {k : Conditions} (hm : m.returned = false)
    (hi : (inText rest)[m.pc]? = some (.inst (.jumpNotSign l)))
    (hl : labelAt? (inText rest) l = some z) (hk : m.data.conditions = some k) :
    Reaches (step leave (inText rest)) m { m with pc := if k.sign then m.pc + 1 else z } := by
  refine reaches_inst hm hi ?_
  change m.data.conditions.bind (fun k => if k.sign then some m.next
    else m.goto (inText rest) l) = _
  rw [hk, Option.bind_some, goto, hl]
  cases k.sign <;> rfl

/-- A jump that is taken if the first operand was above the second. -/
theorem reaches_jumpAbove (leave : Routine → Registers) (rest : List Item) {l : Label} {z : Nat}
    {k : Conditions} (hm : m.returned = false)
    (hi : (inText rest)[m.pc]? = some (.inst (.jumpAbove l)))
    (hl : labelAt? (inText rest) l = some z) (hk : m.data.conditions = some k) :
    Reaches (step leave (inText rest)) m { m with pc := if k.above then z else m.pc + 1 } := by
  refine reaches_inst hm hi ?_
  change m.data.conditions.bind (fun k => if k.above then m.goto (inText rest) l
    else some m.next) = _
  rw [hk, Option.bind_some, goto, hl]
  cases k.above <;> rfl

/-! ## The loop over the digits -/

/-- The loop is entered with the number `n` left to write and `text` behind its digits. -/
structure AtDigits (b v : UInt64) (before : Octets) (n : Nat) (text : List UInt8) (m : Routine) :
    Prop extends Keeps b v before text m where
  pc : m.pc = 12
  r9 : m.data.regs .r9 = factor
  rdi : (m.data.regs .rdi).toNat = n
  rcx : m.data.regs .rcx = cell b (31 - text.length)

/-- The loop is left with the whole text in place. -/
structure AtText (b v : UInt64) (before : Octets) (text : List UInt8) (m : Routine) : Prop
    extends Keeps b v before text m where
  pc : m.pc = 30
  rdx : m.data.regs .rdx = cell b (32 - text.length)
  r8 : m.data.regs .r8 = UInt64.ofNat text.length

/-- One pass up to the jump back. -/
theorem steps_pass (leave : Routine → Registers) (rest : List Item) (hpc : m.pc = 12)
    (hm : m.returned = false) :
    ∃ m', Reaches (step leave (inText rest)) m m' ∧ m'.pc = 29 ∧ m'.returned = false ∧
      m'.writes = m.writes ∧
      m'.stores = (m.data.regs .rcx + UInt64.ofInt 0 + 0) :: m.stores ∧
      m'.memory = m.memory.set (m.data.regs .rcx + UInt64.ofInt 0 + 0)
        (lastDigit (m.data.regs .rdi) (tenth (m.data.regs .r9) (m.data.regs .rdi))) ∧
      m'.data.conditions = some (.ofCompare (m.data.regs .rdi) 9) ∧
      m'.data.regs .rsp = m.data.regs .rsp ∧ m'.data.regs .r9 = m.data.regs .r9 ∧
      m'.data.regs .r10 = m.data.regs .r10 ∧
      m'.data.regs .rdi = tenth (m.data.regs .r9) (m.data.regs .rdi) ∧
      m'.data.regs .rcx = m.data.regs .rcx - 1 ∧ m'.data.regs .rdx = m.data.regs .rcx ∧
      m'.data.regs .r8 = m.data.regs .rsp + UInt64.ofInt 32 + 0 - m.data.regs .rcx := by
  obtain ⟨pc, ⟨regs, conditions⟩, memory, stores, writes, returned⟩ := m
  cases hpc
  cases hm
  refine ⟨_, reaches_of_iterate 17 rfl, ?_⟩
  exact ⟨rfl, rfl, rfl, rfl, rfl, rfl, rfl, rfl, rfl, rfl, rfl, rfl, rfl⟩

/-- **One pass lays down one digit**, and goes on with a tenth of the number unless that was the
first digit. -/
theorem reaches_pass {n : Nat} (leave : Routine → Registers) (rest : List Item)
    (h : AtDigits b v before n text m) (htext : text.length < 31) :
    ∃ m', Reaches (step leave (inText rest)) m m' ∧
      if 9 < n then AtDigits b v before (n / 10) (Text.octet (Nat.digitChar (n % 10)) :: text) m'
      else AtText b v before (Text.octet (Nat.digitChar (n % 10)) :: text) m' := by
  obtain ⟨m₁, hreach, hpc, hret, hwrites, hstores, hmemory, hk, hrsp, hr9, hr10, hrdi, hrcx, hrdx,
    hr8⟩ := steps_pass leave rest h.pc h.returned
  have hcell : m.data.regs .rcx + UInt64.ofInt 0 + 0 = cell b (31 - text.length) := by
    rw [h.rcx]
    exact (UInt64.add_zero _).trans (UInt64.add_zero _)
  have hdigit : lastDigit (m.data.regs .rdi) (tenth (m.data.regs .r9) (m.data.regs .rdi))
      = Text.octet (Nat.digitChar (n % 10)) := by
    rw [h.r9, lastDigit_eq (toNat_tenth _), h.rdi]
  rw [hcell] at hstores hmemory
  rw [hdigit] at hmemory
  have hkeeps : Keeps b v before (Text.octet (Nat.digitChar (n % 10)) :: text) m₁ :=
    h.toKeeps.cons (by omega) (hrsp.trans h.rsp) (hr10.trans h.r10) hmemory hstores hwrites hret
  have habove : (Conditions.ofCompare (m.data.regs .rdi) 9).above = decide (9 < n) := by
    rw [Conditions.ofCompare, ← h.rdi]
    exact decide_eq_decide.2 UInt64.lt_iff_toNat_lt
  have hjump := reaches_jumpAbove leave rest hret (by rw [hpc]; rfl)
    (labelAt?_digits rest) hk
  rw [habove, hpc] at hjump
  refine ⟨_, hreach.trans hjump, ?_⟩
  have hone : 31 - text.length = 30 - text.length + 1 := by omega
  by_cases hn : 9 < n
  · rw [if_pos hn, if_pos (decide_eq_true hn)]
    refine { hkeeps with pc := rfl, r9 := hr9.trans h.r9, rdi := ?_, rcx := ?_ }
    · rw [hrdi, h.r9, toNat_tenth, h.rdi]
    · rw [hrcx, h.rcx, hone, cell_sub_one, List.length_cons,
        show 31 - (text.length + 1) = 30 - text.length by omega]
  · rw [if_neg hn, if_neg (by simpa using hn)]
    refine { hkeeps with pc := rfl, rdx := ?_, r8 := ?_ }
    · rw [hrdx, h.rcx, List.length_cons, show 32 - (text.length + 1) = 31 - text.length by omega]
    · rw [hr8, h.rsp, h.rcx, sub_cell b (by omega), List.length_cons,
        show 32 - (31 - text.length) = text.length + 1 by omega]

/-- The octets of the digits of a number. -/
def digitOctets (n : Nat) : List UInt8 := (Nat.toDigits 10 n).map Text.octet

/-- **The loop lays down all digits**, as long as there is room for them. -/
theorem reaches_digits {n : Nat} (leave : Routine → Registers) (rest : List Item)
    (h : AtDigits b v before n text m) (hroom : text.length + (digitOctets n).length < 32) :
    ∃ m', Reaches (step leave (inText rest)) m m' ∧
      AtText b v before (digitOctets n ++ text) m' := by
  induction n using Nat.strongRecOn generalizing text m with
  | ind n ih =>
    have hpos : 0 < (digitOctets n).length := by
      rw [digitOctets, List.length_map]
      exact Nat.length_toDigits_pos
    obtain ⟨m₁, hreach, hpass⟩ := reaches_pass leave rest h (by omega)
    by_cases hn : 9 < n
    · have hsplit : digitOctets n =
          digitOctets (n / 10) ++ [Text.octet (Nat.digitChar (n % 10))] := by
        rw [digitOctets, Nat.toDigits_of_base_le (by decide) hn, List.map_append]
        rfl
      rw [if_pos hn] at hpass
      rw [hsplit, List.length_append, List.length_singleton] at hroom
      obtain ⟨m₂, hreach', hend⟩ := ih (n / 10) (by omega) hpass (by rw [List.length_cons]; omega)
      refine ⟨m₂, hreach.trans hreach', ?_⟩
      rwa [hsplit, List.append_assoc]
    · have hlast : digitOctets n = [Text.octet (Nat.digitChar (n % 10))] := by
        rw [digitOctets, Nat.toDigits_of_lt_base (by omega), Nat.mod_eq_of_lt (by omega)]
        rfl
      rw [if_neg hn] at hpass
      exact ⟨m₁, hreach, by rwa [hlast]⟩

/-! ## Before and after the loop -/

/-- Whether a number is negative, by the test of it with itself. -/
theorem sign_ofTest (x : UInt64) :
    (Conditions.ofTest x x).sign = decide (x.toInt64.toInt < 0) := by
  rw [Conditions.ofTest, UInt64.and_self, Conditions.ofCompare, UInt64.sub_zero]
  exact decide_eq_decide.2 Int64.lt_iff_toInt_lt

theorem toInt_toInt64 (x : UInt64) :
    x.toInt64.toInt =
      if 2 * x.toNat < 0x10000000000000000 then (x.toNat : Int)
      else x.toNat - 0x10000000000000000 :=
  BitVec.toInt_eq_toNat_cond x.toBitVec

/-- The magnitude of a number is what it was negated to, or the number itself.  The least number is
its own negative, which as an unsigned number is its magnitude. -/
theorem toNat_magnitude (x : UInt64) :
    (if x.toInt64.toInt < 0 then 0 - x else x).toNat = x.toInt64.toInt.natAbs := by
  have hx := x.toNat_lt
  rw [toInt_toInt64]
  by_cases hneg : 2 * x.toNat < 0x10000000000000000
  · rw [if_pos hneg, if_neg (by omega)]
    rfl
  · rw [if_neg hneg, if_pos (by omega), UInt64.toNat_sub, UInt64.toNat_zero]
    omega

/-- The code up to the first test. -/
theorem steps_front (leave : Routine → Registers) (rest : List Item) (regs : Registers)
    (memory : Octets) :
    ∃ m, Reaches (step leave (inText rest)) { pc := 3, data := { regs }, memory } m ∧ m.pc = 10 ∧
      m.returned = false ∧ m.writes = [] ∧
      m.stores = [regs .rsp - 40 + UInt64.ofInt 31 + 0] ∧
      m.memory = memory.set (regs .rsp - 40 + UInt64.ofInt 31 + 0) 10 ∧
      m.data.conditions = some (.ofTest (regs .rdi) (regs .rdi)) ∧
      m.data.regs .rsp = regs .rsp - 40 ∧ m.data.regs .r9 = factor ∧
      m.data.regs .r10 = regs .rdi ∧ m.data.regs .rdi = regs .rdi ∧
      m.data.regs .rcx = regs .rsp - 40 + UInt64.ofInt 30 + 0 := by
  refine ⟨_, reaches_of_iterate 7 rfl, ?_⟩
  exact ⟨rfl, rfl, rfl, rfl, rfl, rfl, rfl, rfl, rfl, rfl, rfl⟩

/-- The loop is entered with the magnitude of the number and the line feed in place. -/
theorem reaches_front (leave : Routine → Registers) (rest : List Item) (regs : Registers)
    (memory : Octets) :
    ∃ m, Reaches (step leave (inText rest)) { pc := 3, data := { regs }, memory } m ∧
      AtDigits (regs .rsp - 40) (regs .rdi) memory (regs .rdi).toInt64.toInt.natAbs [10] m := by
  obtain ⟨m₁, hreach, hpc, hret, hwrites, hstores, hmemory, hk, hrsp, hr9, hr10, hrdi, hrcx⟩ :=
    steps_front leave rest regs memory
  have hcell : regs .rsp - 40 + UInt64.ofInt 31 + 0 = cell (regs .rsp - 40) 31 :=
    UInt64.add_zero _
  rw [hcell] at hstores hmemory
  have hkeeps : Keeps (regs .rsp - 40) (regs .rdi) memory [10] m₁ :=
    { rsp := hrsp
      r10 := hr10
      inPlace := by
        rw [hmemory]
        exact Octets.region_set _ _ _ _ (by decide)
      stores := by
        intro a ha
        rw [hstores, List.mem_singleton] at ha
        exact ⟨31, by decide, ha⟩
      frame := by
        intro a ha
        rw [hstores, List.mem_singleton] at ha
        rw [hmemory, Octets.set, if_neg ha]
      writes := hwrites
      returned := hret }
  have hrcx' : m₁.data.regs .rcx = cell (regs .rsp - 40) 30 := hrcx.trans (UInt64.add_zero _)
  have hmagnitude := toNat_magnitude (regs .rdi)
  have hjump := reaches_jumpNotSign leave rest hret (by rw [hpc]; rfl)
    (labelAt?_digits rest) hk
  rw [sign_ofTest, hpc] at hjump
  by_cases hneg : (regs .rdi).toInt64.toInt < 0
  · rw [if_pos (decide_eq_true hneg)] at hjump
    rw [if_pos hneg] at hmagnitude
    refine ⟨_, (hreach.trans hjump).trans (reaches_inst (i := .neg .rdi) hret rfl rfl), ?_⟩
    exact
      { hkeeps with
        pc := rfl
        r9 := hr9
        rdi := (congrArg (fun x => (0 - x).toNat) hrdi).trans hmagnitude
        rcx := hrcx' }
  · rw [if_neg (by simpa using hneg)] at hjump
    rw [if_neg hneg] at hmagnitude
    refine ⟨_, hreach.trans hjump, ?_⟩
    exact
      { hkeeps with
        pc := rfl
        r9 := hr9
        rdi := (congrArg UInt64.toNat hrdi).trans hmagnitude
        rcx := hrcx' }

/-- The text is about to be written. -/
structure AtWrite (b v : UInt64) (before : Octets) (text : List UInt8) (m : Routine) : Prop
    extends Keeps b v before text m where
  pc : m.pc = 40
  rdi : m.data.regs .rdi = 1
  rsi : m.data.regs .rsi = cell b (32 - text.length)
  rdx : m.data.regs .rdx = UInt64.ofNat text.length

/-- The code behind the loop up to the second test. -/
theorem steps_back (leave : Routine → Registers) (rest : List Item) (hpc : m.pc = 30)
    (hm : m.returned = false) :
    ∃ m', Reaches (step leave (inText rest)) m m' ∧ m'.pc = 36 ∧ m'.returned = false ∧
      m'.writes = m.writes ∧ m'.stores = m.stores ∧ m'.memory = m.memory ∧
      m'.data.conditions = some (.ofTest (m.data.regs .r10) (m.data.regs .r10)) ∧
      m'.data.regs .rsp = m.data.regs .rsp ∧ m'.data.regs .r10 = m.data.regs .r10 ∧
      m'.data.regs .rdi = 1 ∧ m'.data.regs .rdx = m.data.regs .r8 ∧
      m'.data.regs .rsi = m.data.regs .rsp + UInt64.ofInt 32 +
        (m.data.regs .rdx - (m.data.regs .rsp + UInt64.ofInt 32 + 0)) * UInt64.ofNat 1 := by
  obtain ⟨pc, ⟨regs, conditions⟩, memory, stores, writes, returned⟩ := m
  cases hpc
  cases hm
  refine ⟨_, reaches_of_iterate 6 rfl, ?_⟩
  exact ⟨rfl, rfl, rfl, rfl, rfl, rfl, rfl, rfl, rfl, rfl, rfl⟩

/-- The sign in front of the text. -/
theorem steps_sign (leave : Routine → Registers) (rest : List Item) (hpc : m.pc = 37)
    (hm : m.returned = false) :
    ∃ m', Reaches (step leave (inText rest)) m m' ∧ m'.pc = 40 ∧ m'.returned = false ∧
      m'.writes = m.writes ∧ m'.stores = (m.data.regs .rsi + UInt64.ofInt (-1) + 0) :: m.stores ∧
      m'.memory = m.memory.set (m.data.regs .rsi + UInt64.ofInt (-1) + 0) 45 ∧
      m'.data.regs .rsp = m.data.regs .rsp ∧ m'.data.regs .r10 = m.data.regs .r10 ∧
      m'.data.regs .rdi = m.data.regs .rdi ∧ m'.data.regs .rsi = m.data.regs .rsi - 1 ∧
      m'.data.regs .rdx = m.data.regs .rdx + 1 := by
  obtain ⟨pc, ⟨regs, conditions⟩, memory, stores, writes, returned⟩ := m
  cases hpc
  cases hm
  refine ⟨_, reaches_of_iterate 3 rfl, ?_⟩
  exact ⟨rfl, rfl, rfl, rfl, rfl, rfl, rfl, rfl, rfl, rfl⟩

/-- Taking a distance away and adding it again leads back. -/
theorem add_sub_mul_one (x y : UInt64) : y + (x - (y + 0)) * UInt64.ofNat 1 = x := by
  have hone : UInt64.ofNat 1 = 1 := rfl
  rw [hone, UInt64.mul_one, UInt64.add_zero, UInt64.add_comm, UInt64.sub_add_cancel]

/-- The octets of the sign of a number. -/
def signOctets (v : UInt64) : List UInt8 := if v.toInt64.toInt < 0 then [45] else []

/-- **The sign is put in front of the text** of a negative number, and the text handed over. -/
theorem reaches_write (leave : Routine → Registers) (rest : List Item)
    (h : AtText b v before text m) (htext : text.length < 32) :
    ∃ m', Reaches (step leave (inText rest)) m m' ∧
      AtWrite b v before (signOctets v ++ text) m' := by
  obtain ⟨m₁, hreach, hpc, hret, hwrites, hstores, hmemory, hk, hrsp, hr10, hrdi, hrdx, hrsi⟩ :=
    steps_back leave rest h.pc h.returned
  rw [add_sub_mul_one, h.rdx] at hrsi
  have hkeeps : Keeps b v before text m₁ :=
    { rsp := hrsp.trans h.rsp
      r10 := hr10.trans h.r10
      inPlace := by rw [hmemory, h.inPlace]
      stores := by rw [hstores]; exact h.stores
      frame := by rw [hstores, hmemory]; exact h.frame
      writes := hwrites.trans h.writes
      returned := hret }
  have hjump := reaches_jumpNotSign leave rest hret (by rw [hpc]; rfl)
    (labelAt?_write rest) hk
  rw [sign_ofTest, h.r10, hpc] at hjump
  by_cases hneg : v.toInt64.toInt < 0
  · rw [if_pos (decide_eq_true hneg)] at hjump
    obtain ⟨m₂, hreach', hpc₂, hret₂, hwrites₂, hstores₂, hmemory₂, hrsp₂, hr10₂, hrdi₂, hrsi₂,
      hrdx₂⟩ := steps_sign leave rest (m := { m₁ with pc := 37 }) rfl hret
    have hone : 32 - text.length = 31 - text.length + 1 := by omega
    have hcell : m₁.data.regs .rsi + UInt64.ofInt (-1) + 0 = cell b (31 - text.length) := by
      rw [hrsi, hone, ← cell_succ, UInt64.add_zero]
      exact (UInt64.sub_eq_add_neg _ 1).symm.trans (UInt64.add_sub_cancel _ _)
    rw [show Routine.data { m₁ with pc := 37 } = m₁.data from rfl, hcell] at hstores₂ hmemory₂
    refine ⟨m₂, (hreach.trans hjump).trans hreach', ?_⟩
    rw [signOctets, if_pos hneg, List.singleton_append]
    refine
      { hkeeps.cons htext (hrsp₂.trans hkeeps.rsp) (hr10₂.trans hkeeps.r10) hmemory₂ hstores₂
          hwrites₂ hret₂ with
        pc := hpc₂
        rdi := hrdi₂.trans hrdi
        rsi := ?_
        rdx := ?_ }
    · rw [hrsi₂]
      change m₁.data.regs .rsi - 1 = _
      rw [hrsi, hone, cell_sub_one, List.length_cons,
        show 32 - (text.length + 1) = 31 - text.length by omega]
    · rw [hrdx₂]
      change m₁.data.regs .rdx + 1 = _
      rw [hrdx, h.r8, List.length_cons, UInt64.ofNat_add]
      rfl
  · rw [if_neg (by simpa using hneg)] at hjump
    refine ⟨_, hreach.trans hjump, ?_⟩
    rw [signOctets, if_neg hneg, List.nil_append]
    exact { hkeeps with pc := rfl, rdi := hrdi, rsi := hrsi, rdx := hrdx.trans h.r8 }

/-- **The text is written and the room given back.** -/
theorem reaches_return (leave : Routine → Registers) (rest : List Item)
    (h : AtWrite b v before text m) (htext : text.length < 0x10000000000000000) :
    ∃ m', Reaches (step leave (inText rest)) m m' ∧ m'.returned = true ∧ m'.writes = [text] ∧
      m'.data.regs .rsp = b + 40 ∧ m'.stores = m.stores ∧ m'.memory = m.memory := by
  have hlen : (UInt64.ofNat text.length).toNat = text.length := UInt64.toNat_ofNat_of_lt' htext
  have hwritten : m.memory.region (m.data.regs .rsi) (m.data.regs .rdx).toNat = text := by
    rw [h.rsi, h.rdx, hlen, h.inPlace]
  obtain ⟨⟨hrsp, -, -, -, -, hwrites, hret⟩, hpc, hrdi, -, -⟩ := h
  obtain ⟨pc, ⟨regs, conditions⟩, memory, stores, writes, returned⟩ := m
  cases hpc
  cases hret
  cases hwrites
  let call : Routine := ⟨42, ⟨regs.set .rax 1, conditions⟩, memory, stores, [], false⟩
  have hcall : Reaches (step leave (inText rest))
      ⟨40, ⟨regs, conditions⟩, memory, stores, [], false⟩ call := reaches_of_iterate 2 rfl
  have hsys : Reaches (step leave (inText rest)) call { call.next with
      data := { regs := (leave call).set .rsp (regs .rsp) }, writes := [text] } := by
    refine reaches_inst (i := .syscall) rfl rfl ?_
    refine (if_pos ⟨rfl, hrdi⟩).trans (congrArg some ?_)
    rw [← hwritten]
    rfl
  refine ⟨_, (hcall.trans hsys).trans (reaches_of_iterate 2 rfl), rfl, rfl, ?_, rfl, rfl⟩
  exact congrArg (· + (40 : UInt64)) hrsp

/-! ## The line of a number -/

/-- The octets of a line are those of the sign, of the digits and of the line feed. -/
theorem encode_line (v : UInt64) :
    Text.encode (toString v.toInt64 ++ "\n")
      = signOctets v ++ (digitOctets v.toInt64.toInt.natAbs ++ [10]) := by
  have htoList : (toString v.toInt64).toList = if v.toInt64.toInt < 0
      then '-' :: Nat.toDigits 10 v.toInt64.toInt.natAbs
      else Nat.toDigits 10 v.toInt64.toInt.natAbs := Literal.toList_toString_int v.toInt64.toInt
  have hascii : ∀ c ∈ (toString v.toInt64 ++ "\n").toList, c.toNat < 128 := by
    intro c hc
    rw [String.toList_append, List.mem_append] at hc
    rcases hc with hc | hc
    · rcases Literal.mem_toString hc with hdigit | rfl
      · simp only [Literal.isDigit, Bool.and_eq_true, decide_eq_true_eq] at hdigit
        omega
      · decide
    · rw [List.mem_singleton.1 hc]
      decide
  rw [Text.encode_of_ascii hascii, String.toList_append, List.map_append, htoList, signOctets,
    digitOctets]
  by_cases hneg : v.toInt64.toInt < 0
  · rw [if_pos hneg, if_pos hneg, List.map_cons]
    rfl
  · rw [if_neg hneg, if_neg hneg]
    rfl

/-- A magnitude has at most nineteen digits. -/
theorem length_digitOctets_le (x : Int64) : (digitOctets x.toInt.natAbs).length ≤ 19 := by
  have hle := x.le_toInt
  have hlt := x.toInt_lt
  rw [digitOctets, List.length_map, Nat.length_toDigits_le_iff (by decide) (by decide)]
  omega

/-- **The routine writes every number as a line.**  Whatever number is in `rdi`, and whatever is in
the other registers and in memory, the routine returns.  It has written once: the decimal text of
the number and a line feed, which is what the machine writes for the same number.  It has stored
only into the forty octets below the stack pointer it was called with, and leaves the stack pointer
as it was. -/
theorem routine_writes_line (leave : Routine → Registers) (rest : List Item) (regs : Registers)
    (memory : Octets) :
    ∃ start m line, start? (inText rest) regs memory = some start ∧
      Reaches (step leave (inText rest)) start m ∧ m.returned = true ∧
      line = toString (regs .rdi).toInt64 ++ "\n" ∧ m.writes = [Text.encode line] ∧
      (∀ (q : Machine) (st : List Int64) (o : String), q.stack = (regs .rdi).toInt64 :: st →
        q.out = .buffer o → q.dump.2 = none ∧ q.dump.1.out = .buffer (o ++ line)) ∧
      (∀ a ∈ m.stores, ∃ k < 40, a = regs .rsp - 40 + UInt64.ofNat k) ∧
      (∀ a, (∀ k < 40, a ≠ regs .rsp - 40 + UInt64.ofNat k) → m.memory a = memory a) ∧
      m.data.regs .rsp = regs .rsp := by
  have hroom := length_digitOctets_le (regs .rdi).toInt64
  obtain ⟨m₁, hreach₁, hdigits⟩ := reaches_front leave rest regs memory
  obtain ⟨m₂, hreach₂, htext⟩ := reaches_digits leave rest hdigits
    (by rw [List.length_singleton]; omega)
  have hlen : (digitOctets (regs .rdi).toInt64.toInt.natAbs ++ [10]).length < 32 := by
    rw [List.length_append, List.length_singleton]
    omega
  obtain ⟨m₃, hreach₃, hwrite⟩ := reaches_write leave rest htext hlen
  rw [← encode_line] at hwrite
  obtain ⟨m, hreach, hret, hwrites, hrsp, hstores, hmemory⟩ := reaches_return leave rest hwrite (by
    rw [encode_line, List.length_append, signOctets]
    split <;> simp only [List.length_singleton, List.length_nil] <;> omega)
  refine ⟨_, m, _, by rw [start?, labelAt?_dump]; rfl,
    ((hreach₁.trans hreach₂).trans hreach₃).trans hreach, hret, rfl, hwrites, ?_, ?_, ?_, ?_⟩
  · rintro ⟨code, ip, stack, mem, out, steps⟩ st o hst hout
    cases hst
    cases hout
    exact ⟨rfl, rfl⟩
  · rw [hstores]
    exact hwrite.stores
  · intro a ha
    rw [hmemory, hwrite.frame a fun hmem => ?_]
    obtain ⟨k, hk, rfl⟩ := hwrite.stores a hmem
    exact ha k hk rfl
  · rw [hrsp, UInt64.sub_add_cancel]

end Routine

end StackLang.Assembly

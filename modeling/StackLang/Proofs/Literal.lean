import StackLang.Literal
import StackLang.Text.Space

/-!
# Literals

`Literal.Writes` says which texts write which numbers, with the digits valued by the library, and
`read?_eq_some_iff` that a text is read as a 64-bit integer exactly if it writes that integer.

What is written for a number is a literal of that number: `unsigned?_toDigits` for the natural
numbers, and `read?_toString` for all 64-bit integers, the least one included.
-/

set_option autoImplicit false

namespace StackLang.Literal

variable {n : Nat} {c : Char}

theorem isDigit_iff : isDigit c = true ↔ c.isDigit = true := by
  simp [Char.isDigit, isDigit, UInt32.le_iff_toNat_le]

theorem isDigit_of_mem_toDigits (h : c ∈ Nat.toDigits 10 n) : isDigit c = true :=
  isDigit_iff.2 (Nat.isDigit_of_mem_toDigits (by decide) (by decide) h)

theorem value_eq (cs : List Char) : value cs = Nat.ofDigitChars 10 cs 0 := by
  rw [value, Nat.ofDigitChars_eq_foldl]
  refine congrArg (fun f => cs.foldl f 0) (funext fun m => funext fun c => ?_)
  rw [Nat.mul_comm m 10]
  rfl

theorem unsigned?_eq_some_iff {ds : List Char} :
    unsigned? ds = some n ↔
      ds ≠ [] ∧ (∀ c ∈ ds, c.isDigit = true) ∧ Nat.ofDigitChars 10 ds 0 = n := by
  simp [unsigned?, value_eq, isDigit_iff, and_assoc]

/-- The digits of a natural number are a literal of it. -/
theorem unsigned?_toDigits (n : Nat) : unsigned? (Nat.toDigits 10 n) = some n := by
  have hne : (Nat.toDigits 10 n).isEmpty = false := by simp [Nat.toDigits_ne_nil]
  have hall : (Nat.toDigits 10 n).all isDigit = true :=
    List.all_eq_true.2 fun _ => isDigit_of_mem_toDigits
  rw [unsigned?, hne, hall, value_eq, Nat.ofDigitChars_ten_toDigits]
  rfl

/-- Without a sign, a literal is what its digits write. -/
theorem signed?_of_digits {ds : List Char} (h : ∀ c ∈ ds, isDigit c = true) :
    signed? ds = (unsigned? ds).map fun n => (n : Int) := by
  rw [signed?]
  · rintro cs rfl
    exact absurd (h '-' List.mem_cons_self) (by decide)
  · rintro cs rfl
    exact absurd (h '+' List.mem_cons_self) (by decide)

theorem signed?_toDigits (n : Nat) : signed? (Nat.toDigits 10 n) = some (n : Int) := by
  rw [signed?_of_digits fun _ => isDigit_of_mem_toDigits, unsigned?_toDigits]
  rfl

theorem toList_toString_int (n : Int) :
    (toString n).toList
      = if n < 0 then '-' :: Nat.toDigits 10 n.natAbs else Nat.toDigits 10 n.natAbs := by
  cases n with
  | ofNat n => simp [toString, Int.repr, Nat.toList_repr]
  | negSucc n => simp [toString, Int.repr, Nat.toList_repr]

theorem signed?_toString (n : Int) : signed? (toString n).toList = some n := by
  rw [toList_toString_int]
  split
  · rw [signed?, unsigned?_toDigits]
    change some (-(n.natAbs : Int)) = some n
    congr 1
    omega
  · rw [signed?_toDigits]
    congr 1
    omega

theorem fits_toInt (x : Int64) : fits x.toInt = true := by
  have hle := x.le_toInt
  have hlt := x.toInt_lt
  simp only [fits, Bool.and_eq_true, decide_eq_true_eq]
  omega

/-- An optional sign and one or more decimal digits write a number. -/
inductive Writes : List Char → Int → Prop where
  | digits {ds : List Char} (hne : ds ≠ []) (hds : ∀ c ∈ ds, c.isDigit = true) :
    Writes ds (Nat.ofDigitChars 10 ds 0)
  | plus {ds : List Char} (hne : ds ≠ []) (hds : ∀ c ∈ ds, c.isDigit = true) :
    Writes ('+' :: ds) (Nat.ofDigitChars 10 ds 0)
  | minus {ds : List Char} (hne : ds ≠ []) (hds : ∀ c ∈ ds, c.isDigit = true) :
    Writes ('-' :: ds) (-(Nat.ofDigitChars 10 ds 0 : Int))

theorem signed?_eq_some_iff {cs : List Char} {k : Int} : signed? cs = some k ↔ Writes cs k := by
  constructor
  · intro h
    rw [signed?.eq_def] at h
    split at h
    all_goals
      obtain ⟨_, hk, rfl⟩ := Option.map_eq_some_iff.1 h
      obtain ⟨n, hn, ⟨⟩⟩ := Option.bind_eq_some_iff.1 hk
      obtain ⟨hne, hds, rfl⟩ := unsigned?_eq_some_iff.1 hn
    · exact .minus hne hds
    · exact .plus hne hds
    · exact .digits hne hds
  · rintro (⟨hne, hds⟩ | ⟨hne, hds⟩ | ⟨hne, hds⟩)
    · rw [signed?_of_digits fun c hc => isDigit_iff.2 (hds c hc),
        unsigned?_eq_some_iff.2 ⟨hne, hds, rfl⟩]
      rfl
    · rw [signed?, unsigned?_eq_some_iff.2 ⟨hne, hds, rfl⟩]
      rfl
    · rw [signed?, unsigned?_eq_some_iff.2 ⟨hne, hds, rfl⟩]
      rfl

theorem fits_iff {k : Int} : fits k = true ↔ ∃ x : Int64, x.toInt = k := by
  constructor
  · intro h
    simp only [fits, Bool.and_eq_true, decide_eq_true_eq] at h
    exact ⟨Int64.ofInt k, Int64.toInt_ofInt_of_le h.1 h.2⟩
  · rintro ⟨x, rfl⟩
    exact fits_toInt x

/-- **A text is read as the integer that it writes.** -/
theorem read?_eq_some_iff {cs : List Char} {x : Int64} : read? cs = some x ↔ Writes cs x.toInt := by
  rw [← signed?_eq_some_iff, read?, Option.bind_eq_some_iff]
  constructor
  · rintro ⟨k, hk, h⟩
    rw [Option.ite_none_right_eq_some, Option.some_inj] at h
    obtain ⟨hfits, rfl⟩ := h
    obtain ⟨y, rfl⟩ := fits_iff.1 hfits
    rw [hk, Int64.ofInt_toInt]
  · intro h
    exact ⟨x.toInt, h, by rw [if_pos (fits_toInt x), Int64.ofInt_toInt]⟩

/-- **A 64-bit integer reads back from what is written for it.** -/
theorem read?_toString (x : Int64) : read? (toString x).toList = some x := by
  have hsigned : signed? (toString x).toList = some x.toInt := signed?_toString x.toInt
  exact read?_eq_some_iff.2 (signed?_eq_some_iff.1 hsigned)

theorem toList_toString_ne_nil (x : Int64) : (toString x).toList ≠ [] := by
  intro h
  have hread := read?_toString x
  rw [h] at hread
  cases hread

/-- What is written for an integer is made of digits and a sign. -/
theorem mem_toString_int {x : Int} (h : c ∈ (toString x).toList) : isDigit c = true ∨ c = '-' := by
  rw [toList_toString_int] at h
  split at h
  · rcases List.mem_cons.1 h with rfl | h
    · exact .inr rfl
    · exact .inl (isDigit_of_mem_toDigits h)
  · exact .inl (isDigit_of_mem_toDigits h)

theorem mem_toString {x : Int64} (h : c ∈ (toString x).toList) : isDigit c = true ∨ c = '-' :=
  mem_toString_int (x := x.toInt) h

theorem isSpace_of_isDigit (h : isDigit c = true) : Text.isSpace c = false := by
  simp only [isDigit, Bool.and_eq_true, decide_eq_true_eq] at h
  simp only [Text.isSpace, Bool.or_eq_false_iff, Bool.and_eq_false_iff, decide_eq_false_iff_not,
    beq_eq_false_iff_ne]
  omega

end StackLang.Literal

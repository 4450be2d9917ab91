import StackLang.Proofs.Literal
import StackLang.Proofs.Yaml.Printed

/-!
# Integers are read back

What is written for an integer is a plain scalar (`isPlain_toString`), and it means that integer
(`meaning_toString`): it is no date, no octal number and none of the words with a meaning of their
own.
-/

set_option autoImplicit false

namespace StackLang.Yaml

variable {c : Char} {cs : List Char} {n : Nat}

/-! ## Plain scalars -/

theorem hasInnerIndicator_of_digits (h : ∀ c ∈ cs, Literal.isDigit c = true) (prev : Char) :
    Printer.hasInnerIndicator prev cs = false := by
  induction cs generalizing prev with
  | nil => rfl
  | cons c cs ih =>
    obtain ⟨hc, hcs⟩ := List.forall_mem_cons.1 h
    have hcolon := ne_of_class (d := ':') hc rfl
    have hnumber := ne_of_class (d := '#') hc rfl
    rw [Printer.hasInnerIndicator, beq_false_of_ne hcolon, beq_false_of_ne hnumber, ih hcs]
    rfl

theorem isBreak_of_isDigit (h : Literal.isDigit c = true) : isBreak c = false := by
  simp only [Literal.isDigit, Bool.and_eq_true, decide_eq_true_eq] at h
  exact isBreak_of_ascii (by omega) (by omega)

theorem isLeadingIndicator_of_isDigit (h : Literal.isDigit c = true) :
    Printer.isLeadingIndicator c = false := by
  have hall : ∀ d ∈ ['#', ',', '[', ']', '{', '}', '&', '*', '!', '|', '>', '\'', '"', '%', '@'],
      Literal.isDigit d = false := by simp [Literal.isDigit]
  rw [Printer.isLeadingIndicator, Bool.or_eq_false_iff, beq_eq_false_iff_ne]
  constructor
  · rw [← Bool.not_eq_true, List.contains_iff_mem]
    exact fun hmem => ne_of_class h (hall c hmem) rfl
  · simp only [Literal.isDigit, Bool.and_eq_true, decide_eq_true_eq] at h
    omega

/-- Digits can be written plain. -/
theorem isPlain_of_digits (hne : cs ≠ []) (h : ∀ c ∈ cs, Literal.isDigit c = true) :
    IsPlain cs := by
  refine ⟨hne, fun c hc => isBreak_of_isDigit (h c hc), fun c hc => ne_of_class (h c hc) rfl,
    ?_, ?_, ?_⟩
  · exact fun hhead => absurd (h _ (List.mem_of_head? hhead)) (by decide)
  · exact fun hlast => absurd (h _ (List.mem_of_getLast? hlast)) (by decide)
  · obtain ⟨c, cs, rfl⟩ := List.exists_cons_of_ne_nil hne
    obtain ⟨hc, hcs⟩ := List.forall_mem_cons.1 h
    have hinner := hasInnerIndicator_of_digits hcs c
    have hdash := ne_of_class (d := '-') hc rfl
    have hdot := ne_of_class (d := '.') hc rfl
    have hask := ne_of_class (d := '?') hc rfl
    have hcolon := ne_of_class (d := ':') hc rfl
    simp [Printer.hasIndicator, List.isPrefixOf, hinner, isLeadingIndicator_of_isDigit hc, hdash,
      hask, hcolon, hdash.symm, hdot.symm]

/-- So can a sign in front of digits. -/
theorem isPlain_of_sign (hne : cs ≠ []) (h : ∀ c ∈ cs, Literal.isDigit c = true) :
    IsPlain ('-' :: cs) := by
  have hplain := isPlain_of_digits hne h
  refine ⟨by simp, List.forall_mem_cons.2 ⟨rfl, hplain.no_break⟩,
    List.forall_mem_cons.2 ⟨by decide, hplain.no_tab⟩, by simp, ?_, ?_⟩
  · rw [List.getLast?_cons_of_ne_nil hne]
    exact hplain.last
  · obtain ⟨c, cs, rfl⟩ := List.exists_cons_of_ne_nil hne
    have hinner := hasInnerIndicator_of_digits h '-'
    obtain ⟨hc, hcs⟩ := List.forall_mem_cons.1 h
    have hdash := ne_of_class (d := '-') hc rfl
    have hblank : isBlank c = false :=
      isBlank_eq_false_iff.2 ⟨ne_of_class hc rfl, ne_of_class hc rfl⟩
    simp [Printer.hasIndicator, List.isPrefixOf, hinner, Printer.isLeadingIndicator,
      Printer.blankOrEnd, hblank, hdash.symm]

theorem isPlain_toString (n : Int) : IsPlain (toString n).toList := by
  have hdigits : ∀ c ∈ Nat.toDigits 10 n.natAbs, Literal.isDigit c = true :=
    fun c hc => Literal.isDigit_of_mem_toDigits hc
  rw [Literal.toList_toString_int]
  split
  · exact isPlain_of_sign Nat.toDigits_ne_nil hdigits
  · exact isPlain_of_digits Nat.toDigits_ne_nil hdigits

theorem isAllowed_toString (n : Int) : ∀ c ∈ (toString n).toList, isAllowed c = true := by
  have hdigits : ∀ c ∈ Nat.toDigits 10 n.natAbs, isAllowed c = true := by
    intro c hc
    have hdigit := Literal.isDigit_of_mem_toDigits hc
    simp only [Literal.isDigit, Bool.and_eq_true, decide_eq_true_eq] at hdigit
    simp only [isAllowed, Bool.or_eq_true, Bool.and_eq_true, decide_eq_true_eq, beq_iff_eq]
    omega
  rw [Literal.toList_toString_int]
  split
  · exact List.forall_mem_cons.2 ⟨rfl, hdigits⟩
  · exact hdigits

/-! ## Meanings -/

namespace Plain

theorem digit?_of_isDigit (h : Literal.isDigit c = true) :
    digit? 10 c = some (Literal.digitValue c) := by
  have hdigit := h
  simp only [Literal.isDigit, Bool.and_eq_true, decide_eq_true_eq] at hdigit
  have hrange : (decide (0x30 ≤ c.toNat) && decide (c.toNat ≤ 0x39)) = true := h
  simp only [digit?, hrange, if_true]
  rw [if_pos (by omega)]
  rfl

theorem digits?_toDigits (n : Nat) : digits? 10 (Nat.toDigits 10 n) = some n := by
  have hfold : ∀ (cs : List Char) (m : Nat), (∀ c ∈ cs, Literal.isDigit c = true) →
      cs.foldl (fun acc c => acc.bind fun n => (digit? 10 c).map (n * 10 + ·)) (some m) =
        some (cs.foldl (fun n c => n * 10 + Literal.digitValue c) m) := by
    intro cs
    induction cs with
    | nil => intro m _; rfl
    | cons c cs ih =>
      intro m h
      obtain ⟨hc, hcs⟩ := List.forall_mem_cons.1 h
      rw [List.foldl_cons, Option.bind_some, digit?_of_isDigit hc]
      exact ih _ hcs
  rw [digits?]
  · rw [hfold _ 0 fun c hc => Literal.isDigit_of_mem_toDigits hc]
    have hvalue : Literal.value (Nat.toDigits 10 n) = n := by
      rw [Literal.value_eq, Nat.ofDigitChars_ten_toDigits]
    exact congrArg some hvalue
  · exact Nat.toDigits_ne_nil

/-- A positive number is not written with a zero in front. -/
theorem head_toDigits_ne_zero (hn : 0 < n) : (Nat.toDigits 10 n).head? ≠ some '0' := by
  induction n using Nat.strongRecOn with
  | ind n ih =>
    by_cases hlt : n < 10
    · have hall : ∀ m : Fin 10, 0 < m.val → m.val.digitChar ≠ '0' := by decide
      rw [Nat.toDigits_of_lt_base hlt]
      simpa using hall ⟨n, hlt⟩ hn
    · have hrest := ih (n / 10) (Nat.div_lt_self hn (by decide)) (by omega)
      obtain ⟨c, cs, hcs⟩ :=
        List.exists_cons_of_ne_nil (Nat.toDigits_ne_nil (n := n / 10) (b := 10))
      rw [hcs] at hrest
      rw [Nat.toDigits_of_base_le (by decide) (Nat.not_lt.1 hlt), hcs]
      exact hrest

theorem magnitude?_of_head_ne (h : cs.head? ≠ some '0') : magnitude? cs = digits? 10 cs := by
  rw [magnitude?] <;> intros <;> subst_vars <;> exact h rfl

theorem magnitude?_toDigits (n : Nat) : magnitude? (Nat.toDigits 10 n) = some n := by
  cases n with
  | zero => rfl
  | succ n =>
    rw [magnitude?_of_head_ne (head_toDigits_ne_zero (Nat.succ_pos n)), digits?_toDigits]

theorem integer?_toString {n : Int} (h : Literal.fits n = true) :
    integer? (toString n).toList = some n := by
  simp only [Literal.fits, Bool.and_eq_true, decide_eq_true_eq] at h
  rw [Literal.toList_toString_int]
  split
  · rw [integer?, magnitude?_toDigits, Option.bind_some, if_pos (by simp only [signedLimit]; omega)]
    congr 1
    omega
  · have hsize : n.natAbs < UInt64.size := by
      have : UInt64.size = 0x10000000000000000 := rfl
      omega
    rw [integer?, magnitude?_toDigits, Option.bind_some, if_pos hsize]
    · congr 1
      omega
    · intro cs hcs
      have hsign := Literal.isDigit_of_mem_toDigits (hcs ▸ List.mem_cons_self)
      cases hsign
    · intro cs hcs
      have hsign := Literal.isDigit_of_mem_toDigits (hcs ▸ List.mem_cons_self)
      cases hsign

theorem date?_of_sign (cs : List Char) : date? ('-' :: cs) = none := by
  rw [date?, if_pos (by simp [Literal.isDigit])]
  rfl

theorem date?_of_digits (h : ∀ c ∈ cs, Literal.isDigit c = true) : date? cs = none := by
  have hafter : after? '-' (cs.drop 4) = none := by
    cases hdrop : cs.drop 4 with
    | nil => rfl
    | cons d ds =>
      have hd : d ∈ cs := List.mem_of_mem_drop (hdrop ▸ List.mem_cons_self)
      rw [after?, if_neg (by simpa using ne_of_class (h d hd) rfl)]
  simp only [date?, hafter, Option.bind_eq_bind, Option.bind_none]
  split <;> rfl

/-- No integer is written like a date. -/
theorem isTimestamp_toString (n : Int) : isTimestamp (toString n).toList = false := by
  have hdate : date? (toString n).toList = none := by
    rw [Literal.toList_toString_int]
    split
    · exact date?_of_sign _
    · exact date?_of_digits fun c hc => Literal.isDigit_of_mem_toDigits hc
  rw [isTimestamp, hdate]

/-- No integer is a word with a meaning of its own. -/
theorem word?_toString (n : Int) : word? (toString n) = none := by
  have hread := Literal.signed?_toString n
  have hne : ∀ ws : List String, (∀ w ∈ ws, Literal.signed? w.toList = none) →
      ws.contains (toString n) = false := by
    intro ws hws
    rw [← Bool.not_eq_true, List.contains_iff_mem]
    intro hmem
    rw [hws _ hmem] at hread
    cases hread
  simp only [word?]
  rw [hne _ (by decide), hne _ (by decide), hne _ (by decide), hne _ (by decide),
    hne _ (by decide), hne _ (by decide)]
  rfl

theorem filter_toString (n : Int) :
    (toString n).toList.filter (· != '_') = (toString n).toList := by
  rw [List.filter_eq_self]
  intro c hc
  rw [bne_iff_ne]
  rintro rfl
  rw [Literal.toList_toString_int] at hc
  split at hc
  · rcases List.mem_cons.1 hc with hc | hc
    · cases hc
    · exact absurd (Literal.isDigit_of_mem_toDigits hc) (by decide)
  · exact absurd (Literal.isDigit_of_mem_toDigits hc) (by decide)

/-- **What is written for an integer means that integer.** -/
theorem meaning_toString {n : Int} (h : Literal.fits n = true) (dates : Bool) :
    meaning dates (toString n) = .int n := by
  have hnumeric : numeric dates (toString n).toList = .int n := by
    simp only [numeric, isTimestamp_toString, filter_toString, integer?_toString h, Bool.and_false]
    rfl
  obtain ⟨c, cs, heq, hc⟩ : ∃ c cs, (toString n).toList = c :: cs ∧
      (c = '-' ∨ Literal.isDigit c = true) := by
    rw [Literal.toList_toString_int]
    split
    · exact ⟨_, _, rfl, .inl rfl⟩
    · obtain ⟨c, cs, hcs⟩ :=
        List.exists_cons_of_ne_nil (Nat.toDigits_ne_nil (n := n.natAbs) (b := 10))
      exact ⟨c, cs, hcs, .inr (Literal.isDigit_of_mem_toDigits (hcs ▸ List.mem_cons_self))⟩
  have hdot : c ≠ '.' := by
    rcases hc with rfl | hc
    · decide
    · exact ne_of_class hc rfl
  have hstart : (c == '+' || c == '-' || Literal.isDigit c) = true := by
    rcases hc with rfl | hc
    · rfl
    · simp [hc]
  rw [heq] at hnumeric
  simp only [meaning, word?_toString, heq, beq_false_of_ne hdot, hstart, hnumeric,
    Bool.false_eq_true, if_false, if_true]

end Plain

end StackLang.Yaml

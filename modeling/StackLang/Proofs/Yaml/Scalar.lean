import Mathlib.Algebra.Ring.Nat
import StackLang.Yaml.Printer
import StackLang.Yaml.Scalar

/-!
# What is written for a string is read back

For each style of a string, the reader of such scalars reads what the printer writes as that
string, and stops where the string ends: `plain_line`, `quotedScalar_double` and
`quotedScalar_single`.
-/

set_option autoImplicit false

namespace StackLang.Yaml

variable {c : Char} {cs rest : List Char} {line col index k : Nat}

/-! ## Characters -/

theorem isBlank_iff : isBlank c = true ↔ c = ' ' ∨ c = '\t' := by
  rw [isBlank, Bool.or_eq_true, beq_iff_eq, beq_iff_eq]

theorem isBlank_eq_false_iff : isBlank c = false ↔ c ≠ ' ' ∧ c ≠ '\t' := by
  rw [← Bool.not_eq_true, isBlank_iff, not_or]

/-- A character of a class is none that is not in the class. -/
theorem ne_of_class {p : Char → Bool} {d : Char} (h : p c = true) (hd : p d = false) : c ≠ d := by
  rintro rfl
  rw [h] at hd
  cases hd

/-- At the first character of a token, or at the end of the text. -/
def AtToken (cs : List Char) : Prop :=
  ∀ c ∈ cs.head?, isBlank c = false ∧ isBreak c = false ∧ c ≠ '#'

theorem not_atMarker (hcol : col ≠ 0) :
    (Cursor.mk cs line col index).atMarker = false := by
  rw [Cursor.atMarker, beq_false_of_ne hcol, Bool.false_and]

/-- The line and paragraph separators: the line ends that stand in a value as they are. -/
def IsSeparator (c : Char) : Prop := c.toNat = 0x2028 ∨ c.toNat = 0x2029

theorem isSeparator_of_isShown (hshown : Printer.isShown c = true) (hbreak : isBreak c = true)
    (hne : c ≠ '\n') : IsSeparator c := by
  simp only [isBreak, Bool.or_eq_true, beq_iff_eq] at hbreak
  rcases hbreak with (((rfl | rfl) | hc) | hc) | hc
  · exact absurd rfl hne
  · cases hshown
  · simp [Printer.isShown, hc] at hshown
  · exact .inl hc
  · exact .inr hc

theorem IsSeparator.breakValue (h : IsSeparator c) : breakValue c = c := by
  rw [Yaml.breakValue, if_pos]
  rw [Bool.or_eq_true, beq_iff_eq, beq_iff_eq]
  exact h

theorem IsSeparator.isBreak (h : IsSeparator c) : isBreak c = true := by
  rcases h with h | h <;> simp [Yaml.isBreak, h]

theorem IsSeparator.ne (h : IsSeparator c) : c ≠ '\n' ∧ c ≠ '\r' := by
  constructor <;> rintro rfl <;> rcases h with h | h <;> cases h

/-! ## Scalars under construction -/

/-- What has been read of a scalar, which ends in a separator or not. -/
inductive Folding : Bool → Fold → List Char → Prop
  | inside {blanks : List Char} (hblanks : ∀ c ∈ blanks, c = ' ') (text : List Char) :
      Folding false { text, blanks } (blanks ++ text).reverse
  | broken {d : Char} (hd : d ≠ '\n') (text more : List Char) :
      Folding true { text, broken := true, firstBreak := some d, moreBreaks := more }
        (more ++ d :: text).reverse

variable {f : Fold} {done : List Char} {broken : Bool}

theorem folding_nil : Folding false {} [] := .inside (List.forall_mem_nil _) []

theorem Folding.broken_eq (h : Folding broken f done) : f.broken = broken := by
  cases h <;> rfl

theorem Folding.join (h : Folding broken f done) : f.join = { text := done.reverse } := by
  cases h with
  | inside hblanks text => rw [List.reverse_reverse]; rfl
  | broken hd text more =>
    rw [Fold.join, List.reverse_reverse]
    simp only [if_true]

theorem Folding.value (h : Folding broken f done) : f.join.value = String.ofList done := by
  rw [h.join, Fold.value, List.reverse_reverse]

theorem Folding.put (h : Folding broken f done) (c : Char) :
    Folding false (f.put c) (done ++ [c]) := by
  have hinside := Folding.inside (List.forall_mem_nil _) (c :: done.reverse)
  rw [List.nil_append, List.reverse_cons, List.reverse_reverse] at hinside
  rwa [Fold.put, h.join]

theorem Folding.blank (h : Folding false f done) : Folding false (f.blank ' ') (done ++ [' ']) := by
  cases h with
  | @inside blanks hblanks text =>
    have hinside := Folding.inside (List.forall_mem_cons.2 ⟨rfl, hblanks⟩) text
    rwa [List.cons_append, List.reverse_cons] at hinside

/-- Blanks behind a line end do not count. -/
theorem Folding.blank_broken (h : Folding true f done) (c : Char) : f.blank c = f := by
  rw [Fold.blank, if_pos h.broken_eq]

/-- A text that does not end in a space has no blanks in store. -/
theorem Folding.eq_text (h : Folding false f done) (hlast : done.getLast? ≠ some ' ') :
    f = { text := done.reverse } := by
  cases h with
  | @inside blanks hblanks text =>
    rw [List.getLast?_reverse] at hlast
    cases blanks with
    | nil => rw [List.reverse_reverse]; rfl
    | cons b blanks => exact absurd (congrArg some (hblanks b List.mem_cons_self)) hlast

theorem Folding.lineEnd (h : Folding broken f done) (hlast : done.getLast? ≠ some ' ')
    (hc : IsSeparator c) : Folding true (f.lineEnd c) (done ++ [c]) := by
  cases broken with
  | false =>
    have hbroken := Folding.broken hc.ne.1 done.reverse []
    rw [List.nil_append, List.reverse_cons, List.reverse_reverse] at hbroken
    rw [h.eq_text hlast, Fold.lineEnd, hc.breakValue]
    exact hbroken
  | true =>
    cases h with
    | broken hd text more =>
      have hbroken := Folding.broken hd text (c :: more)
      rw [List.cons_append, List.reverse_cons] at hbroken
      rw [Fold.lineEnd, hc.breakValue]
      exact hbroken

/-! ## Plain scalars -/

/-- A line of text that can be written plain. -/
structure IsPlain (cs : List Char) : Prop where
  ne_nil : cs ≠ []
  no_break : ∀ c ∈ cs, isBreak c = false
  no_tab : ∀ c ∈ cs, c ≠ '\t'
  head : cs.head? ≠ some ' '
  last : cs.getLast? ≠ some ' '
  no_indicator : Printer.hasIndicator cs = false

theorem isPlain_of_canBePlain (h : Printer.canBePlain cs = true) (hne : cs ≠ []) :
    IsPlain cs := by
  simp only [Printer.canBePlain, Printer.canBeSingle, Bool.and_eq_true, Bool.not_eq_true',
    List.any_eq_false, bne_iff_ne] at h
  obtain ⟨⟨⟨⟨⟨⟨_, htab⟩, _⟩, hbreak⟩, hhead⟩, hlast⟩, hindicator⟩ := h
  refine ⟨hne, fun c hc => by simpa using hbreak c hc, ?_, hhead, hlast, hindicator⟩
  rintro c hc rfl
  simp [hc] at htab

/-- A gap in the middle of a line is one in the text in front of the line end. -/
theorem atGap_append (hbreak : ∀ c ∈ cs, isBreak c = false) (rest : List Char) :
    atGap (cs ++ '\n' :: rest) = Printer.blankOrEnd cs := by
  cases cs with
  | nil => rfl
  | cons c cs =>
    rw [List.cons_append, atGap, Printer.blankOrEnd, hbreak c List.mem_cons_self, Bool.or_false]

/-- The rest of a plain line, behind the character `prev`. -/
theorem plainFrom_line {prev : Char} {gap : Bool} {indent : Nat} (h : Folding false f done)
    (hbreak : ∀ c ∈ cs, isBreak c = false) (htab : ∀ c ∈ cs, c ≠ '\t')
    (hlast : (done ++ cs).getLast? ≠ some ' ')
    (hinner : Printer.hasInnerIndicator prev cs = false) (hgap : gap = true → isBlank prev = true)
    (hindent : indent ≤ col) (hcol : col ≠ 0) (rest : List Char) :
    plainFrom false indent gap f line col index (cs ++ '\n' :: rest) =
      plainFrom false indent true
        { text := (done ++ cs).reverse, broken := true, firstBreak := some '\n' }
        (line + 1) 0 (index + cs.length + 1) rest := by
  induction cs generalizing prev gap f done col index with
  | nil =>
    rw [List.append_nil] at hlast ⊢
    rw [h.eq_text hlast]
    rfl
  | cons c cs ih =>
    obtain ⟨hc, hcs⟩ := List.forall_mem_cons.1 hbreak
    obtain ⟨hct, hcst⟩ := List.forall_mem_cons.1 htab
    simp only [Printer.hasInnerIndicator, Bool.or_eq_false_iff] at hinner
    obtain ⟨⟨hcolon, hhash⟩, hinner⟩ := hinner
    rw [List.append_cons] at hlast
    rw [List.append_cons done, List.length_cons, Nat.add_comm cs.length, ← Nat.add_assoc,
      List.cons_append, plainFrom]
    by_cases hblank : isBlank c = true
    · obtain rfl : c = ' ' := (isBlank_iff.1 hblank).resolve_right hct
      simp only [hblank, h.broken_eq, Bool.false_and, Bool.false_eq_true, if_true, if_false]
      exact ih h.blank hcs hcst hlast hinner (fun _ => hblank) (by omega) (by omega)
    · have hstop : (gap && (!false && decide (col < indent) ||
          (Cursor.mk (c :: (cs ++ '\n' :: rest)) line col index).atMarker || c == '#')) =
            false := by
        rw [not_atMarker hcol]
        cases hg : gap with
        | false => rfl
        | true => simp [hgap hg] at hhash; simp [hhash]; omega
      have hend :
          (c == ':' && atGap (cs ++ '\n' :: rest) || false && isFlowIndicator c) = false := by
        rw [atGap_append hcs, hcolon]
        rfl
      simp only [hblank, hc, hstop, hend, Bool.false_eq_true, if_false]
      exact ih (h.put c) hcs hcst hlast hinner (by simp) (by omega) (by omega)

theorem plainFrom_stop {indent : Nat} (hf : f.broken = true) (hrest : AtToken rest)
    (hindent : col + k < indent) :
    plainFrom false indent true f line col index (List.replicate k ' ' ++ rest) =
      some (f, ⟨rest, line, col + k, index + k⟩) := by
  induction k generalizing col index with
  | zero =>
    rw [List.replicate_zero, List.nil_append, Nat.add_zero, Nat.add_zero]
    cases rest with
    | nil => rfl
    | cons c rest =>
      obtain ⟨hblank, hbreak, -⟩ := hrest c rfl
      have hcol : col < indent := by omega
      simp [plainFrom, hblank, hbreak, hcol]
  | succ k ih =>
    have hblank : f.blank ' ' = f := by rw [Fold.blank, if_pos hf]
    rw [List.replicate_succ, List.cons_append, plainFrom]
    simp only [show isBlank ' ' = true from rfl, show (' ' == '\t') = false from rfl, hblank,
      Bool.and_false, Bool.false_eq_true, if_true, if_false]
    rw [ih (by omega), Nat.add_assoc, Nat.add_comm 1, Nat.add_assoc index, Nat.add_comm 1]

/-- **A plain line is read up to the first token of the next line**, if that is further to the
left. -/
theorem plain_line {indent : Nat} (h : IsPlain cs) (hindent : indent ≤ col) (hk : k < indent)
    (hrest : AtToken rest) :
    plain false indent ⟨cs ++ '\n' :: (List.replicate k ' ' ++ rest), line, col, index⟩ =
      some (String.ofList cs, ⟨rest, line + 1, k, index + cs.length + 1 + k⟩, true) := by
  obtain ⟨hne, hbreak, htab, hhead, hlast, hindicator⟩ := h
  obtain ⟨c, cs, rfl⟩ := List.exists_cons_of_ne_nil hne
  obtain ⟨hc, hcs⟩ := List.forall_mem_cons.1 hbreak
  obtain ⟨hct, hcst⟩ := List.forall_mem_cons.1 htab
  simp only [Printer.hasIndicator, Bool.or_eq_false_iff] at hindicator
  obtain ⟨⟨-, hstart⟩, hinner⟩ := hindicator
  have hblank : isBlank c = false :=
    isBlank_eq_false_iff.2 ⟨fun hspace => hhead (congrArg some hspace), hct⟩
  have hgap : (c == ':' && atGap (cs ++ '\n' :: (List.replicate k ' ' ++ rest))) = false := by
    rw [atGap_append hcs]
    simp only [Bool.and_eq_false_iff, Bool.or_eq_false_iff] at hstart ⊢
    exact hstart.imp_left fun h => h.1.2
  rw [plain, List.cons_append, plainFrom]
  simp only [hblank, hc, hgap, Bool.false_and, Bool.or_self, Bool.false_eq_true, if_false]
  rw [plainFrom_line (folding_nil.put c) hcs hcst hlast hinner (by simp) (by omega) (by omega),
    plainFrom_stop rfl hrest (by omega), Option.map_some]
  simp [Fold.value]
  omega

/-! ## Double quotes -/

theorem hexValue?_hexDigit {n : Nat} (h : n < 16) :
    hexValue? (Text.hexDigit n).toUpper = some n := by
  have hall : ∀ m : Fin 16, hexValue? (Text.hexDigit m).toUpper = some m.val := by decide
  exact hall ⟨n, h⟩

theorem isCodePoint_toNat (c : Char) : isCodePoint c.toNat = true := by
  have hvalid : c.toNat < 0xD800 ∨ 0xDFFF < c.toNat ∧ c.toNat < 0x110000 := c.valid
  simp only [isCodePoint, Bool.or_eq_true, Bool.and_eq_true, decide_eq_true_eq]
  omega

theorem doubleQuotedFrom_digit {left v d : Nat} (hd : hexValue? c = some d) (rest : List Char) :
    doubleQuotedFrom (.digits left v) f line col index (c :: rest) =
      if left ≤ 1 then
        if isCodePoint (v * 16 + d) then
          doubleQuotedFrom .text (f.put (Char.ofNat (v * 16 + d))) line (col + 1) (index + 1) rest
        else none
      else
        doubleQuotedFrom (.digits (left - 1) (v * 16 + d)) f line (col + 1) (index + 1) rest := by
  rw [doubleQuotedFrom]
  simp only [hd]

theorem doubleQuotedFrom_escape (hbreak : isBreak c = false) (rest : List Char) :
    doubleQuotedFrom .escape f line col index (c :: rest) =
      match escape? c with
      | none => none
      | some (.char ch) => doubleQuotedFrom .text (f.put ch) line (col + 1) (index + 1) rest
      | some (.code n) =>
        doubleQuotedFrom (.digits n 0) f line (col + 1) (index + 1) rest := by
  rw [doubleQuotedFrom]
  exact if_neg (by simp [hbreak])

/-- Inside a line, every character but a quote and a backslash stands for itself. -/
theorem doubleQuotedFrom_text (hbreak : isBreak c = false) (hcol : col ≠ 0) (rest : List Char) :
    doubleQuotedFrom .text f line col index (c :: rest) =
      if isBlank c then doubleQuotedFrom .text (f.blank c) line (col + 1) (index + 1) rest
      else if c == '"' then some (f.join.value, ⟨rest, line, col + 1, index + 1⟩)
      else if c == '\\' then doubleQuotedFrom .escape f line (col + 1) (index + 1) rest
      else doubleQuotedFrom .text (f.put c) line (col + 1) (index + 1) rest := by
  rw [doubleQuotedFrom]
  simp only [hbreak, not_atMarker hcol, Bool.false_eq_true, if_false]

/-- Digits that are not the last ones of an escape. -/
theorem doubleQuotedFrom_digits {left : Nat} (hleft : 0 < left) (d n v : Nat)
    (rest : List Char) :
    doubleQuotedFrom (.digits (d + left) v) f line col index
        ((Text.hexDigits n d).map Char.toUpper ++ rest) =
      doubleQuotedFrom (.digits left (v * 16 ^ d + n % 16 ^ d)) f line (col + d) (index + d)
        rest := by
  induction d generalizing n left rest with
  | zero => simp [Text.hexDigits, Nat.mod_one]
  | succ d ih =>
    have hvalue : (v * 16 ^ d + n / 16 % 16 ^ d) * 16 + n % 16 =
        v * 16 ^ (d + 1) + n % 16 ^ (d + 1) := by
      rw [Nat.pow_succ, Nat.mul_comm (16 ^ d) 16, Nat.mod_mul]
      grind
    rw [Text.hexDigits, List.map_append, List.append_assoc, Nat.add_assoc d, Nat.add_comm 1 left,
      ih (Nat.succ_pos left), List.map_singleton, List.singleton_append,
      doubleQuotedFrom_digit (hexValue?_hexDigit (Nat.mod_lt n (by decide))), if_neg (by omega),
      Nat.succ_sub_one, hvalue, Nat.add_assoc, Nat.add_assoc]

/-- All digits of an escape. -/
theorem doubleQuotedFrom_code {d : Nat} (c : Char) (hc : c.toNat < 16 ^ (d + 1))
    (rest : List Char) :
    doubleQuotedFrom (.digits (d + 1) 0) f line col index
        ((Text.hexDigits c.toNat (d + 1)).map Char.toUpper ++ rest) =
      doubleQuotedFrom .text (f.put c) line (col + d + 1) (index + d + 1) rest := by
  have hvalue : (0 * 16 ^ d + c.toNat / 16 % 16 ^ d) * 16 + c.toNat % 16 = c.toNat := by
    have hlt : c.toNat / 16 < 16 ^ d := by
      rw [Nat.pow_succ] at hc
      omega
    rw [Nat.mod_eq_of_lt hlt]
    omega
  rw [Text.hexDigits, List.map_append, List.append_assoc, doubleQuotedFrom_digits Nat.one_pos,
    List.map_singleton, List.singleton_append,
    doubleQuotedFrom_digit (hexValue?_hexDigit (Nat.mod_lt c.toNat (by decide))), hvalue,
    if_pos (Nat.le_refl 1), if_pos (isCodePoint_toNat c), Char.ofNat_toNat]

theorem doubleQuotedFrom_backslash (hcol : col ≠ 0) (rest : List Char) :
    doubleQuotedFrom .text f line col index ('\\' :: rest) =
      doubleQuotedFrom .escape f line (col + 1) (index + 1) rest :=
  doubleQuotedFrom_text rfl hcol rest

/-- The reader between double quotes reads `written` as `c`. -/
def Reads (written : List Char) (c : Char) : Prop :=
  ∀ (f : Fold) (done : List Char) (line col index : Nat) (rest : List Char),
    Folding false f done → col ≠ 0 →
      ∃ f' col' index', Folding false f' (done ++ [c]) ∧ col' ≠ 0 ∧
        doubleQuotedFrom .text f line col index (written ++ rest) =
          doubleQuotedFrom .text f' line col' index' rest

/-- An escape of two characters. -/
theorem reads_short {e : Char} {n : Nat} (hn : c.toNat = n)
    (he : escape? e = some (.char (Char.ofNat n))) (hbreak : isBreak e = false) :
    Reads ['\\', e] c := by
  intro f done line col index rest h hcol
  rw [← hn, Char.ofNat_toNat] at he
  refine ⟨f.put c, col + 1 + 1, index + 1 + 1, h.put c, by omega, ?_⟩
  rw [List.cons_append, doubleQuotedFrom_backslash hcol, List.cons_append, List.nil_append,
    doubleQuotedFrom_escape hbreak, he]

/-- An escape by a code point. -/
theorem reads_long {e : Char} {d : Nat} (he : escape? e = some (.code (d + 1)))
    (hbreak : isBreak e = false) (hc : c.toNat < 16 ^ (d + 1)) :
    Reads ('\\' :: e :: (Text.hexDigits c.toNat (d + 1)).map Char.toUpper) c := by
  intro f done line col index rest h hcol
  refine ⟨f.put c, col + 1 + 1 + d + 1, index + 1 + 1 + d + 1, h.put c, by omega, ?_⟩
  rw [List.cons_append, doubleQuotedFrom_backslash hcol, List.cons_append,
    doubleQuotedFrom_escape hbreak, he]
  exact doubleQuotedFrom_code c hc rest

/-- A character that is written as it is. -/
theorem reads_shown (hshown : Printer.isShown c = true) (hbreak : isBreak c = false)
    (hquote : c ≠ '"') (hslash : c ≠ '\\') : Reads [c] c := by
  intro f done line col index rest h hcol
  rw [List.singleton_append, doubleQuotedFrom_text hbreak hcol]
  by_cases hblank : isBlank c = true
  · have hspace : c = ' ' := (isBlank_iff.1 hblank).resolve_right (ne_of_class hshown rfl)
    subst hspace
    exact ⟨f.blank ' ', col + 1, index + 1, h.blank, by omega, if_pos hblank⟩
  · refine ⟨f.put c, col + 1, index + 1, h.put c, by omega, ?_⟩
    rw [if_neg hblank, if_neg (by simpa using hquote), if_neg (by simpa using hslash)]

/-- **A character that is written between double quotes is read as that character.** -/
theorem reads_escaped (shown : Bool) (c : Char) : Reads (Printer.escaped shown c) c := by
  rw [Printer.escaped]
  split
  · rename_i hshown
    simp only [Bool.and_eq_true, Bool.not_eq_true', bne_iff_ne] at hshown
    obtain ⟨⟨⟨⟨-, hc⟩, hbreak⟩, hquote⟩, hslash⟩ := hshown
    exact reads_shown hc hbreak hquote hslash
  · split
    case h_1 h | h_2 h | h_3 h | h_4 h | h_5 h | h_6 h | h_7 h | h_8 h | h_9 h | h_10 h | h_11 h
        | h_12 h | h_13 h | h_14 h | h_15 h => exact reads_short h rfl rfl
    case h_16 =>
      have hlt : c.toNat < 16 ^ (7 + 1) := by
        have hpoint := isCodePoint_toNat c
        simp only [isCodePoint, Bool.or_eq_true, Bool.and_eq_true, decide_eq_true_eq] at hpoint
        omega
      simp only
      split
      · exact reads_long (e := 'x') (d := 1) rfl rfl (by omega)
      · split
        · exact reads_long (e := 'u') (d := 3) rfl rfl (by omega)
        · exact reads_long (e := 'U') (d := 7) rfl rfl hlt

theorem doubleQuotedFrom_flatMap (shown : Bool) (h : Folding false f done) (hcol : col ≠ 0)
    (line index : Nat) (rest : List Char) :
    ∃ col' index', doubleQuotedFrom .text f line col index
        (cs.flatMap (Printer.escaped shown) ++ '"' :: rest) =
      some (String.ofList (done ++ cs), ⟨rest, line, col', index'⟩) := by
  induction cs generalizing f done col index with
  | nil =>
    refine ⟨col + 1, index + 1, ?_⟩
    rw [List.flatMap_nil, List.nil_append, List.append_nil, ← h.value]
    exact doubleQuotedFrom_text rfl hcol rest
  | cons c cs ih =>
    rw [List.flatMap_cons, List.append_assoc, List.append_cons done]
    obtain ⟨f', col', index', h', hcol', hread⟩ :=
      reads_escaped shown c f done line col index _ h hcol
    rw [hread]
    exact ih h' hcol' index'

/-- **What is written between double quotes is read as it was.** -/
theorem quotedScalar_double (cs rest : List Char) (line col index : Nat) :
    ∃ col' index', quotedScalar ⟨Printer.double cs ++ rest, line, col, index⟩ =
      some (String.ofList cs, ⟨rest, line, col', index'⟩) := by
  rw [Printer.double, List.cons_append, List.cons_append, List.append_assoc,
    List.singleton_append]
  exact doubleQuotedFrom_flatMap _ folding_nil (Nat.succ_ne_zero col) line (index + 1) rest

/-! ## Single quotes -/

/-- A quote that is not doubled ends the scalar, and everything else is a blank, a line end or
stands for itself. -/
theorem singleQuotedFrom_cons (h : c = '\'' → rest.head? ≠ some '\'') :
    singleQuotedFrom f line col index (c :: rest) =
      if isBlank c then singleQuotedFrom (f.blank c) line (col + 1) (index + 1) rest
      else if isBreak c then
        if c == '\r' && rest.head? == some '\n' then
          singleQuotedFrom f line (col + 1) (index + 1) rest
        else singleQuotedFrom (f.lineEnd c) (line + 1) 0 (index + 1) rest
      else if (Cursor.mk (c :: rest) line col index).atMarker then none
      else if c == '\'' then some (f.join.value, ⟨rest, line, col + 1, index + 1⟩)
      else singleQuotedFrom (f.put c) line (col + 1) (index + 1) rest := by
  rw [singleQuotedFrom]
  rintro rest' hc rfl
  exact h hc rfl

theorem singleQuotedFrom_space (rest : List Char) :
    singleQuotedFrom f line col index (' ' :: rest) =
      singleQuotedFrom (f.blank ' ') line (col + 1) (index + 1) rest :=
  singleQuotedFrom_cons nofun

theorem singleQuotedFrom_separator (hc : IsSeparator c) (rest : List Char) :
    singleQuotedFrom f line col index (c :: rest) =
      singleQuotedFrom (f.lineEnd c) (line + 1) 0 (index + 1) rest := by
  have hne : c ≠ ' ' ∧ c ≠ '\t' ∧ c ≠ '\'' := by
    refine ⟨?_, ?_, ?_⟩ <;> rintro rfl <;> rcases hc with h | h <;> cases h
  rw [singleQuotedFrom_cons fun h => absurd h hne.2.2]
  simp only [isBlank_eq_false_iff.2 ⟨hne.1, hne.2.1⟩, hc.isBreak, beq_false_of_ne hc.ne.2,
    Bool.false_and, Bool.false_eq_true, if_false, if_true]

theorem singleQuotedFrom_char (hblank : isBlank c = false) (hbreak : isBreak c = false)
    (hc : c ≠ '\'') (hcol : col ≠ 0) (rest : List Char) :
    singleQuotedFrom f line col index (c :: rest) =
      singleQuotedFrom (f.put c) line (col + 1) (index + 1) rest := by
  rw [singleQuotedFrom_cons fun h => absurd h hc]
  simp only [hblank, hbreak, not_atMarker hcol, beq_false_of_ne hc, Bool.false_eq_true, if_false]

theorem singleQuotedFrom_end (hrest : rest.head? ≠ some '\'') :
    singleQuotedFrom f line col index ('\'' :: rest) =
      some (f.join.value, ⟨rest, line, col + 1, index + 1⟩) := by
  have hmarker : (Cursor.mk ('\'' :: rest) line col index).atMarker = false := by
    rw [Cursor.atMarker]
    exact Bool.and_false _
  rw [singleQuotedFrom_cons fun _ => hrest, hmarker]
  rfl

/-- The indentation behind a line end does not count. -/
theorem singleQuotedFrom_indentation (h : Folding broken f done) (hcol : broken = false → col ≠ 0)
    (line index : Nat) (rest : List Char) :
    ∃ col' index', col' ≠ 0 ∧ singleQuotedFrom f line col index
        ((if broken then Printer.indentation else []) ++ rest) =
      singleQuotedFrom f line col' index' rest := by
  cases broken with
  | false => exact ⟨col, index, hcol rfl, rfl⟩
  | true =>
    refine ⟨col + 1 + 1, index + 1 + 1, Nat.succ_ne_zero _, ?_⟩
    rw [if_pos rfl, Printer.indentation, List.cons_append, singleQuotedFrom_space, h.blank_broken,
      List.cons_append, singleQuotedFrom_space, h.blank_broken, List.nil_append]

/-- A character other than a blank and a line end. -/
theorem singleQuotedFrom_shown (hblank : isBlank c = false) (hbreak : isBreak c = false)
    (hcol : col ≠ 0) (line index : Nat) (rest : List Char) :
    ∃ col' index', col' ≠ 0 ∧ singleQuotedFrom f line col index
        ((if c == '\'' then ['\'', '\''] else [c]) ++ rest) =
      singleQuotedFrom (f.put c) line col' index' rest := by
  by_cases hc : c = '\''
  · subst hc
    exact ⟨col + 2, index + 2, Nat.succ_ne_zero _, rfl⟩
  · refine ⟨col + 1, index + 1, Nat.succ_ne_zero _, ?_⟩
    rw [if_neg (by simpa using hc), List.singleton_append,
      singleQuotedFrom_char hblank hbreak hc hcol]

theorem hasPair_of_cons {p q : Char → Bool} {d : Char}
    (h : Printer.hasPair p q (d :: cs) = false) : Printer.hasPair p q cs = false := by
  cases cs with
  | nil => rfl
  | cons e cs =>
    rw [Printer.hasPair, Bool.or_eq_false_iff] at h
    exact h.2

theorem hasPair_append {p q : Char → Bool} {x : Char}
    (h : Printer.hasPair p q (done ++ c :: cs) = false) (hx : done.getLast? = some x) :
    (p x && q c) = false := by
  obtain ⟨ds, rfl⟩ := List.getLast?_eq_some_iff.1 hx
  rw [← List.append_cons] at h
  clear hx
  induction ds with
  | nil =>
    rw [List.nil_append, Printer.hasPair, Bool.or_eq_false_iff] at h
    exact h.1
  | cons d ds ih => exact ih (hasPair_of_cons h)

theorem any_getLast?_of_hasPair {p q : Char → Bool}
    (h : Printer.hasPair p q (done ++ c :: cs) = false) (hq : q c = true) :
    done.getLast?.any p = false := by
  cases hx : done.getLast? with
  | none => rfl
  | some x => simpa [hq] using hasPair_append h hx

/-- Characters that are written between single quotes, behind `done`. -/
theorem singleQuotedFrom_chars (h : Folding broken f done)
    (hbroken : broken = done.getLast?.any isBreak)
    (hshown : ∀ c ∈ cs, Printer.isShown c = true) (hfeed : '\n' ∉ cs)
    (hspace : Printer.hasPair isBreak Printer.isSpaceChar (done ++ cs) = false)
    (hblank : Printer.hasPair Printer.isSpaceChar isBreak (done ++ cs) = false)
    (hcol : broken = false → col ≠ 0) (hrest : rest.head? ≠ some '\'') (line index : Nat) :
    ∃ line' col' index', singleQuotedFrom f line col index
        (Printer.singleChars broken cs ++ '\'' :: rest) =
      some (String.ofList (done ++ cs), ⟨rest, line', col', index'⟩) := by
  induction cs generalizing broken f done line col index with
  | nil =>
    rw [Printer.singleChars, List.nil_append, List.append_nil, singleQuotedFrom_end hrest, h.value]
    exact ⟨_, _, _, rfl⟩
  | cons c cs ih =>
    obtain ⟨hc, hcs⟩ := List.forall_mem_cons.1 hshown
    obtain ⟨hcn, hcsn⟩ := not_or.1 (mt List.mem_cons.2 hfeed)
    have hnext : ∀ {f' : Fold} {broken' : Bool} {col' : Nat} (line' index' : Nat),
        Folding broken' f' (done ++ [c]) → broken' = isBreak c → (broken' = false → col' ≠ 0) →
        ∃ line'' col'' index'', singleQuotedFrom f' line' col' index'
            (Printer.singleChars broken' cs ++ '\'' :: rest) =
          some (String.ofList (done ++ c :: cs), ⟨rest, line'', col'', index''⟩) := by
      intro f' broken' col' line' index' h' hbroken' hcol'
      rw [List.append_cons done] at hspace hblank ⊢
      exact ih h' (by simpa using hbroken') hcs hcsn hspace hblank hcol' line' index'
    by_cases hc' : c = ' '
    · -- a space does not stand behind a line end
      subst hc'
      have hinside : broken = false := hbroken.trans (any_getLast?_of_hasPair hspace rfl)
      subst hinside
      rw [Printer.singleChars, if_pos (by rfl), List.cons_append, singleQuotedFrom_space]
      exact hnext line (index + 1) h.blank rfl fun _ => Nat.succ_ne_zero col
    · by_cases hbreak : isBreak c = true
      · have hlast : done.getLast? ≠ some ' ' := by
          intro hx
          have hpair := any_getLast?_of_hasPair hblank hbreak
          rw [hx] at hpair
          cases hpair
        have hsep := isSeparator_of_isShown hc hbreak (Ne.symm hcn)
        rw [Printer.singleChars, if_neg (by simpa using hc'), if_pos hbreak, List.cons_append,
          singleQuotedFrom_separator hsep]
        exact hnext (line + 1) (index + 1) (h.lineEnd hlast hsep) hbreak.symm (by simp)
      · have hnotBlank : isBlank c = false :=
          isBlank_eq_false_iff.2 ⟨hc', ne_of_class hc rfl⟩
        rw [Bool.not_eq_true] at hbreak
        obtain ⟨col₁, index₁, hcol₁, hindent⟩ := singleQuotedFrom_indentation h hcol line index
          ((if c == '\'' then ['\'', '\''] else [c]) ++
            (Printer.singleChars false cs ++ '\'' :: rest))
        obtain ⟨col₂, index₂, hcol₂, hread⟩ := singleQuotedFrom_shown (f := f) hnotBlank hbreak
          hcol₁ line index₁ (Printer.singleChars false cs ++ '\'' :: rest)
        rw [Printer.singleChars, if_neg (by simpa using hc'), if_neg (by simp [hbreak])]
        simp only [List.append_assoc]
        rw [hindent, hread]
        exact hnext line index₂ (h.put c) hbreak.symm fun _ => hcol₂

/-- **What is written between single quotes is read as it was.** -/
theorem quotedScalar_single (hsingle : Printer.canBeSingle cs = true) (hfeed : '\n' ∉ cs)
    (hrest : rest.head? ≠ some '\'') (line col index : Nat) :
    ∃ line' col' index', quotedScalar ⟨Printer.single cs ++ rest, line, col, index⟩ =
      some (String.ofList cs, ⟨rest, line', col', index'⟩) := by
  simp only [Printer.canBeSingle, Printer.needsEscape, Bool.and_eq_true, Bool.not_eq_true',
    List.any_eq_false] at hsingle
  obtain ⟨⟨⟨hspace, hblank⟩, htab⟩, hescape⟩ := hsingle
  have hshown : ∀ c ∈ cs, Printer.isShown c = true := by
    intro c hc
    have htab' : c ≠ '\t' := by
      rintro rfl
      simp [hc] at htab
    simpa [htab'] using hescape c hc
  rw [Printer.single, List.cons_append, List.cons_append, List.append_assoc,
    List.singleton_append]
  exact singleQuotedFrom_chars folding_nil rfl hshown hfeed hspace hblank
    (fun _ => Nat.succ_ne_zero col) hrest line (index + 1)

end StackLang.Yaml

import StackLang.Proofs.Yaml.Scanning

/-!
# Printed strings are scanned back

A string is printed as a scalar of some style, of characters that may stand in a text
(`isAllowed_value`), and the scanner takes the scalar as a token with that string
(`reachesSome_value`).  Only a literal block that starts with a line end or a tab is not read as it
was meant (`Printer.IsFaithful`).
-/

set_option autoImplicit false

namespace StackLang.Yaml

variable {c : Char} {cs rest : List Char} {s : String} {k : Nat}

/-! ## Characters -/

theorem isAllowed_of_isShown (h : Printer.isShown c = true) : isAllowed c = true := by
  have hvalid : c.toNat < 0xD800 ∨ 0xDFFF < c.toNat ∧ c.toNat < 0x110000 := c.valid
  simp only [Printer.isShown, Bool.or_eq_true, Bool.and_eq_true, decide_eq_true_eq, beq_iff_eq,
    bne_iff_ne] at h
  simp only [isAllowed, Bool.or_eq_true, Bool.and_eq_true, decide_eq_true_eq, beq_iff_eq]
  omega

theorem isAllowed_of_not_needsEscape (h : Printer.needsEscape cs = false) :
    ∀ c ∈ cs, isAllowed c = true := by
  intro c hc
  simp only [Printer.needsEscape, List.any_eq_false, Bool.and_eq_true, bne_iff_ne,
    Bool.not_eq_true', not_and, Bool.not_eq_false] at h
  by_cases htab : c = '\t'
  · rw [htab]
    rfl
  · exact isAllowed_of_isShown (h c hc htab)

theorem isAllowed_hexDigit {n : Nat} (h : n < 16) :
    isAllowed (Text.hexDigit n).toUpper = true := by
  have hall : ∀ m : Fin 16, isAllowed (Text.hexDigit m).toUpper = true := by decide
  exact hall ⟨n, h⟩

theorem isAllowed_hexDigits (n d : Nat) :
    ∀ c ∈ (Text.hexDigits n d).map Char.toUpper, isAllowed c = true := by
  induction d generalizing n with
  | zero => exact List.forall_mem_nil _
  | succ d ih =>
    rw [Text.hexDigits, List.map_append, List.forall_mem_append]
    refine ⟨ih (n / 16), ?_⟩
    rw [List.map_singleton, List.forall_mem_singleton]
    exact isAllowed_hexDigit (Nat.mod_lt n (by decide))

theorem isAllowed_escaped (shown : Bool) (c : Char) :
    ∀ d ∈ Printer.escaped shown c, isAllowed d = true := by
  rw [Printer.escaped]
  split
  · rename_i hshown
    simp only [Bool.and_eq_true] at hshown
    intro d hd
    rw [List.mem_singleton.1 hd]
    exact isAllowed_of_isShown hshown.1.1.1.2
  · split <;> try exact List.all_eq_true.1 rfl
    have hdigits := isAllowed_hexDigits c.toNat
    split
    · exact List.forall_mem_cons.2 ⟨rfl, List.forall_mem_cons.2 ⟨rfl, hdigits 2⟩⟩
    · split
      · exact List.forall_mem_cons.2 ⟨rfl, List.forall_mem_cons.2 ⟨rfl, hdigits 4⟩⟩
      · exact List.forall_mem_cons.2 ⟨rfl, List.forall_mem_cons.2 ⟨rfl, hdigits 8⟩⟩

theorem isAllowed_double (cs : List Char) : ∀ c ∈ Printer.double cs, isAllowed c = true := by
  rw [Printer.double, List.forall_mem_append, List.forall_mem_cons]
  refine ⟨⟨rfl, fun c hc => ?_⟩, List.forall_mem_singleton.2 rfl⟩
  obtain ⟨d, -, hd⟩ := List.mem_flatMap.1 hc
  exact isAllowed_escaped _ d c hd

theorem isAllowed_singleChars (h : ∀ c ∈ cs, isAllowed c = true) (atStart : Bool) :
    ∀ c ∈ Printer.singleChars atStart cs, isAllowed c = true := by
  induction cs generalizing atStart with
  | nil => exact List.forall_mem_nil _
  | cons c cs ih =>
    obtain ⟨hc, hcs⟩ := List.forall_mem_cons.1 h
    rw [Printer.singleChars]
    split
    · exact List.forall_mem_cons.2 ⟨hc, ih hcs _⟩
    · split
      · exact List.forall_mem_cons.2 ⟨hc, ih hcs _⟩
      · rw [List.forall_mem_append, List.forall_mem_append]
        refine ⟨⟨?_, ?_⟩, ih hcs _⟩
        · split <;> exact List.all_eq_true.1 rfl
        · split
          · exact List.all_eq_true.1 rfl
          · exact List.forall_mem_singleton.2 hc

theorem isAllowed_single (h : ∀ c ∈ cs, isAllowed c = true) :
    ∀ c ∈ Printer.single cs, isAllowed c = true := by
  rw [Printer.single, List.forall_mem_append, List.forall_mem_cons]
  exact ⟨⟨rfl, isAllowed_singleChars h _⟩, List.forall_mem_singleton.2 rfl⟩

theorem isAllowed_literalLines (h : ∀ c ∈ cs, isAllowed c = true) (atStart : Bool) :
    ∀ c ∈ Printer.literalLines atStart cs, isAllowed c = true := by
  induction cs generalizing atStart with
  | nil => exact List.forall_mem_nil _
  | cons c cs ih =>
    obtain ⟨hc, hcs⟩ := List.forall_mem_cons.1 h
    rw [Printer.literalLines]
    split
    · exact List.forall_mem_cons.2 ⟨hc, ih hcs _⟩
    · rw [List.forall_mem_append]
      refine ⟨?_, List.forall_mem_cons.2 ⟨hc, ih hcs _⟩⟩
      split <;> exact List.all_eq_true.1 rfl

theorem isAllowed_literal (h : ∀ c ∈ cs, isAllowed c = true) :
    ∀ c ∈ Printer.literal cs, isAllowed c = true := by
  unfold Printer.literal
  rw [List.forall_mem_append, List.forall_mem_append, List.forall_mem_cons]
  refine ⟨⟨⟨rfl, ?_⟩, ?_⟩, isAllowed_literalLines h _⟩
  · unfold Printer.literalHints
    rw [List.forall_mem_append]
    constructor
    · cases cs with
      | nil => exact List.all_eq_true.1 rfl
      | cons c cs => simp only; split <;> exact List.all_eq_true.1 rfl
    · split
      · exact List.all_eq_true.1 rfl
      · split <;> exact List.all_eq_true.1 rfl
      · split
        · exact List.all_eq_true.1 rfl
        · split <;> exact List.all_eq_true.1 rfl
  · split
    · split <;> exact List.all_eq_true.1 rfl
    · exact List.all_eq_true.1 rfl

/-! ## Styles -/

/-- What holds of a string by its style. -/
def Printer.Suits (s : String) : Printer.Style → Prop
  | .plain => readsAsString s = true ∧ canBePlain s.toList = true
  | .single => '\n' ∉ s.toList ∧ canBeSingle s.toList = true
  | .double => True
  | .literal => '\n' ∈ s.toList ∧ canBeLiteral s.toList = true

theorem Printer.suits_style (s : String) : Suits s (style s) := by
  simp only [style]
  by_cases hfeed : '\n' ∈ s.toList
  · rw [if_pos (List.contains_iff_mem.2 hfeed)]
    split
    · rename_i hliteral
      exact ⟨hfeed, hliteral⟩
    · trivial
  · rw [if_neg (by simpa using hfeed)]
    split
    · trivial
    · rename_i hreads
      rw [Bool.not_eq_true', Bool.not_eq_false] at hreads
      split
      · rename_i hplain
        exact ⟨hreads, hplain⟩
      · split
        · rename_i hsingle
          exact ⟨hfeed, hsingle⟩
        · trivial

theorem not_needsEscape_of_canBeSingle (h : Printer.canBeSingle cs = true) :
    Printer.needsEscape cs = false := by
  simp only [Printer.canBeSingle, Bool.and_eq_true, Bool.not_eq_true'] at h
  exact h.2

theorem canBeSingle_of_canBePlain (h : Printer.canBePlain cs = true) :
    Printer.canBeSingle cs = true := by
  simp only [Printer.canBePlain, Bool.and_eq_true] at h
  exact h.1.1.1.1

theorem not_needsEscape_of_canBeLiteral (h : Printer.canBeLiteral cs = true) :
    Printer.needsEscape cs = false := by
  simp only [Printer.canBeLiteral, Bool.and_eq_true, Bool.not_eq_true'] at h
  exact h.2

/-- A printed string has no character that may not stand in a text. -/
theorem isAllowed_value (s : String) :
    ∀ c ∈ (Printer.value s).toList, isAllowed c = true := by
  have hsuits := Printer.suits_style s
  have hend : ∀ c ∈ ['\n'], isAllowed c = true := List.all_eq_true.1 rfl
  simp only [Printer.value]
  cases hstyle : Printer.style s with
  | plain =>
    rw [hstyle] at hsuits
    have hescape := not_needsEscape_of_canBeSingle (canBeSingle_of_canBePlain hsuits.2)
    simp only [String.toList_append]
    exact List.forall_mem_append.2 ⟨isAllowed_of_not_needsEscape hescape, hend⟩
  | single =>
    rw [hstyle] at hsuits
    have hescape := not_needsEscape_of_canBeSingle hsuits.2
    simp only [String.toList_ofList]
    exact List.forall_mem_append.2 ⟨isAllowed_single (isAllowed_of_not_needsEscape hescape), hend⟩
  | double =>
    simp only [String.toList_ofList]
    exact List.forall_mem_append.2 ⟨isAllowed_double s.toList, hend⟩
  | literal =>
    rw [hstyle] at hsuits
    have hescape := not_needsEscape_of_canBeLiteral hsuits.2
    simp only [String.toList_ofList]
    refine List.forall_mem_append.2 ⟨isAllowed_literal (isAllowed_of_not_needsEscape hescape), ?_⟩
    split
    · exact List.forall_mem_nil _
    · exact hend

/-! ## Scanning -/

/-- A string whose scalar is read as the string: one that is no literal block, or one that starts
with something to read. -/
def Printer.IsFaithful (s : String) : Prop :=
  style s = .literal → ∀ c ∈ s.toList.head?, isBreak c = false ∧ c ≠ '\t'

/-- A string of one line is no literal block. -/
theorem Printer.isFaithful_of_notMem (h : '\n' ∉ s.toList) : IsFaithful s := by
  intro hstyle
  have hsuits := suits_style s
  rw [hstyle] at hsuits
  exact absurd hsuits.1 h

theorem isPlain_of_suits (h : Printer.Suits s .plain) : IsPlain s.toList := by
  refine isPlain_of_canBePlain h.2 ?_
  intro hempty
  have hs : s = "" := by rw [← String.ofList_toList (s := s), hempty]
  have hreads := h.1
  rw [hs] at hreads
  cases hreads

theorem atToken_value (s : String) (rest : List Char) :
    AtToken ((Printer.value s).toList ++ rest) := by
  have hsuits := Printer.suits_style s
  simp only [Printer.value]
  cases hstyle : Printer.style s with
  | plain =>
    rw [hstyle] at hsuits
    simp only [String.toList_append, List.append_assoc]
    exact (isPlain_of_suits hsuits).atToken _
  | single =>
    simp only [String.toList_ofList]
    rintro c hc
    cases hc
    decide
  | double =>
    simp only [String.toList_ofList]
    rintro c hc
    cases hc
    decide
  | literal =>
    simp only [String.toList_ofList]
    rintro c hc
    cases hc
    decide

open Scanner in
/-- A string that is printed on one line, plain or between double quotes. -/
theorem reaches_value {p : Place} {block : Nat} {blocks : List Nat}
    (hstyle : Printer.style s = .plain ∨ Printer.style s = .double) (hkey : p.keyOk = false)
    (hblocks : p.blocks = block :: blocks) (hcol : block < p.col)
    (heq : p.rest = (Printer.value s).toList ++ (List.replicate k ' ' ++ rest)) (hk : k ≤ block)
    (hrest : AtToken rest) :
    Reaches p (p.afterScalar (Printer.style s != .plain) s.toList rest (p.line + 1) k) := by
  have hsuits := Printer.suits_style s
  rcases hstyle with hstyle | hstyle
  · rw [hstyle] at hsuits ⊢
    have hvalue : (Printer.value s).toList = s.toList ++ ['\n'] := by
      simp only [Printer.value, hstyle, String.toList_append]
      rfl
    rw [hvalue, List.append_assoc, List.singleton_append] at heq
    exact reaches_plain hkey hblocks hcol heq (isPlain_of_suits hsuits) hk hrest
  · have hvalue : (Printer.value s).toList = Printer.double s.toList ++ ['\n'] := by
      simp only [Printer.value, hstyle, String.toList_ofList]
    rw [hvalue, List.append_assoc, List.singleton_append] at heq
    rw [hstyle]
    refine reachesSome_quoted (l := fun _ => p.line) hkey ?_ (by omega) heq (.inr rfl) hrest ?_
    · rw [hblocks]
      rintro b hb
      cases hb
      exact Nat.le_of_lt hcol
    · intro index
      obtain ⟨col', index', hread⟩ := quotedScalar_double s.toList
        ('\n' :: (List.replicate k ' ' ++ rest)) p.line p.col index
      exact ⟨0, col', index', by rw [heq]; exact hread⟩

open Scanner in
/-- **The scanner takes a printed string as a token with that string**, if the string is read as it
was meant, in a mapping of the first column. -/
theorem reachesSome_value {p : Place} (hs : Printer.IsFaithful s) (hkey : p.keyOk = false)
    (hblocks : p.blocks = [0]) (hcol : p.col ≠ 0)
    (heq : p.rest = (Printer.value s).toList ++ rest) (hrest : AtToken rest) :
    ReachesSome p fun line =>
      p.afterScalar (Printer.style s != .plain) s.toList rest line 0 := by
  have hsuits := Printer.suits_style s
  have hline : Printer.style s = .plain ∨ Printer.style s = .double → ReachesSome p fun line =>
      p.afterScalar (Printer.style s != .plain) s.toList rest line 0 := by
    intro hstyle
    refine Reaches.some (i := p.line + 1) ?_
    exact reaches_value hstyle hkey hblocks (Nat.pos_of_ne_zero hcol) heq (Nat.le_refl 0) hrest
  cases hstyle : Printer.style s with
  | plain => exact hstyle ▸ hline (.inl hstyle)
  | double => exact hstyle ▸ hline (.inr hstyle)
  | single =>
    rw [hstyle] at hsuits
    have hvalue : (Printer.value s).toList = Printer.single s.toList ++ ['\n'] := by
      simp only [Printer.value, hstyle, String.toList_ofList]
    rw [hvalue, List.append_assoc, List.singleton_append] at heq
    refine (reachesSome_quoted (l := id) (k := 0) hkey (by simp [hblocks]) hcol heq (.inl rfl) hrest
      ?_).comp
    intro index
    rw [heq]
    exact quotedScalar_single hsuits.2 hsuits.1 (by simp) p.line p.col index
  | literal =>
    rw [hstyle] at hsuits
    obtain ⟨hfeed, hliteral⟩ := hsuits
    have hread := @blockScalar_literal s.toList rest hliteral (List.ne_nil_of_mem hfeed) (hs hstyle)
      hrest p.line p.col
    have hvalue : (Printer.value s).toList = Printer.literal s.toList ++
        if (s.toList.getLast?.map isBreak).getD false then [] else ['\n'] := by
      simp only [Printer.value, hstyle, String.toList_ofList]
    rw [hvalue] at heq
    rw [← heq] at hread
    exact reachesSome_literal hblocks hcol heq hrest hread

end StackLang.Yaml

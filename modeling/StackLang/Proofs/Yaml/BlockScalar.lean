import StackLang.Proofs.Yaml.Scalar

/-!
# Literal blocks are read back

A text of several lines is written as a literal block, which is read as that text if its first line
starts with something to read: with neither a tab nor a line end (`blockScalar_literal`).
-/

set_option autoImplicit false

namespace StackLang.Yaml

variable {c x : Char} {cs line' bs rest : List Char} {line col index : Nat}

/-- The line ends that stand in a literal block as they are. -/
def IsKept (c : Char) : Prop := c = '\n' ∨ IsSeparator c

theorem isKept_of_isShown (hshown : Printer.isShown c = true) (hbreak : isBreak c = true) :
    IsKept c := by
  by_cases hc : c = '\n'
  · exact .inl hc
  · exact .inr (isSeparator_of_isShown hshown hbreak hc)

theorem IsKept.breakValue (h : IsKept c) : breakValue c = c := by
  rcases h with rfl | h
  · rfl
  · exact h.breakValue

theorem IsKept.isBreak (h : IsKept c) : isBreak c = true := by
  rcases h with rfl | h
  · rfl
  · exact h.isBreak

theorem IsKept.ne (h : IsKept c) : c ≠ ' ' ∧ c ≠ '\t' ∧ c ≠ '\r' := by
  rcases h with rfl | h
  · decide
  · refine ⟨?_, ?_, h.ne.2⟩ <;> rintro rfl <;> rcases h with h | h <;> cases h

/-! ## Lines -/

theorem literalLines_append_line (hline : ∀ c ∈ line', isBreak c = false) (hx : isBreak x = true)
    (cs : List Char) :
    Printer.literalLines false (line' ++ x :: cs) = line' ++ x :: Printer.literalLines true cs := by
  induction line' with
  | nil => rw [List.nil_append, Printer.literalLines, if_pos hx, List.nil_append]
  | cons c line' ih =>
    obtain ⟨hc, hline⟩ := List.forall_mem_cons.1 hline
    rw [List.cons_append, Printer.literalLines, if_neg (by simp [hc]), ih hline]
    rfl

/-- A text is a line, a line end and further lines. -/
theorem exists_line (hbreak : ∃ x ∈ cs, isBreak x = true) :
    ∃ line' x cs', cs = line' ++ x :: cs' ∧ (∀ c ∈ line', isBreak c = false) ∧
      isBreak x = true := by
  induction cs with
  | nil => simp at hbreak
  | cons c cs ih =>
    cases hc : isBreak c with
    | true => exact ⟨[], c, cs, rfl, List.forall_mem_nil _, hc⟩
    | false =>
      obtain ⟨line', x, cs', rfl, hline, hx⟩ := ih (by simpa [hc] using hbreak)
      exact ⟨c :: line', x, cs', rfl, List.forall_mem_cons.2 ⟨hc, hline⟩, hx⟩

theorem restOfLine_line {text : List Char} (hline : ∀ c ∈ line', isBreak c = false) (hx : IsKept x)
    (rest : List Char) :
    ∃ index', restOfLine text line col index (line' ++ x :: rest) =
      (text.reverse ++ line', [x], ⟨rest, line + 1, 0, index'⟩) := by
  induction line' generalizing text col index with
  | nil =>
    refine ⟨index + 1, ?_⟩
    rw [List.nil_append, List.append_nil, restOfLine, if_pos hx.isBreak, hx.breakValue,
      if_neg (by simp [hx.ne.2.2])]
  | cons c line' ih =>
    obtain ⟨hc, hline⟩ := List.forall_mem_cons.1 hline
    rw [List.cons_append, restOfLine, if_neg (by simp [hc]), List.append_cons text.reverse,
      ← List.reverse_cons]
    exact ih hline

theorem length_le_literalLines (atStart : Bool) (cs : List Char) :
    cs.length ≤ (Printer.literalLines atStart cs).length := by
  induction cs generalizing atStart with
  | nil => exact Nat.le_refl _
  | cons c cs ih =>
    rw [Printer.literalLines]
    split
    · exact Nat.succ_le_succ (ih true)
    · have hrest := ih false
      simp only [List.length_append, List.length_cons]
      omega

/-! ## Line ends and indentation -/

theorem blockBreaksFrom_indentation {indent widest : Nat} {breaks : List Char}
    (hindent : indent = 2 ∨ indent = 0 ∧ c ≠ ' ' ∧ c ≠ '\t') (hc : isBreak c = false)
    (rest : List Char) :
    blockBreaksFrom indent widest breaks line 0 index (Printer.indentation ++ c :: rest) =
      some (breaks, max widest 2, ⟨c :: rest, line, 2, index + 2⟩) := by
  rw [Printer.indentation, List.cons_append, List.cons_append, List.nil_append]
  rcases hindent with rfl | ⟨rfl, hspace, htab⟩
  · simp [blockBreaksFrom, hc]
  · simp [blockBreaksFrom, hc, hspace, htab]

/-- The reader skips empty lines and the indentation of the line behind them. -/
theorem blockBreaksFrom_lines (hkept : ∀ c ∈ cs, isBreak c = true → IsKept c)
    (hrest : AtToken rest) (widest : Nat) (breaks : List Char) (line index : Nat) :
    ∃ bs cs' widest' line' index', cs = bs ++ cs' ∧ (∀ c ∈ bs, isBreak c = true) ∧
      (∀ c ∈ cs'.head?, isBreak c = false) ∧
      blockBreaksFrom 2 widest breaks line 0 index (Printer.literalLines true cs ++ rest) =
        some (bs.reverse ++ breaks, widest', ⟨Printer.literalLines false cs' ++ rest, line',
          if cs' = [] then 0 else 2, index'⟩) := by
  induction cs generalizing widest breaks line index with
  | nil =>
    refine ⟨[], [], max widest 0, line, index, rfl, List.forall_mem_nil _, by simp, ?_⟩
    rw [Printer.literalLines, Printer.literalLines, List.nil_append, if_pos rfl]
    cases rest with
    | nil => rfl
    | cons c rest =>
      obtain ⟨hblank, hbreak, -⟩ := hrest c rfl
      obtain ⟨hspace, htab⟩ := isBlank_eq_false_iff.1 hblank
      simp [blockBreaksFrom, hspace, htab, hbreak]
  | cons c cs ih =>
    obtain ⟨hc, hcs⟩ := List.forall_mem_cons.1 hkept
    cases hbreak : isBreak c with
    | true =>
      obtain ⟨bs, cs', widest', line', index', rfl, hbs, hhead, hread⟩ :=
        ih hcs (max widest 0) (c :: breaks) (line + 1) (index + 1)
      have hk := hc hbreak
      refine ⟨c :: bs, cs', widest', line', index', rfl, List.forall_mem_cons.2 ⟨hbreak, hbs⟩,
        hhead, ?_⟩
      rw [Printer.literalLines, if_pos hbreak, List.cons_append, blockBreaksFrom]
      simp only [beq_false_of_ne hk.ne.1, beq_false_of_ne hk.ne.2.1, beq_false_of_ne hk.ne.2.2,
        hbreak, hk.breakValue, Bool.and_false, Bool.false_and, Bool.false_eq_true, if_false,
        if_true]
      rw [hread, List.reverse_cons, List.append_assoc, List.singleton_append]
    | false =>
      refine ⟨[], c :: cs, max widest 2, line, index + 2, rfl, List.forall_mem_nil _,
        by simp [hbreak], ?_⟩
      rw [Printer.literalLines, if_neg (by simp [hbreak]), if_pos rfl, List.append_assoc,
        List.cons_append, blockBreaksFrom_indentation (.inl rfl) hbreak, Printer.literalLines,
        if_neg (by simp [hbreak])]
      rfl

/-! ## The lines of a block -/

/-- What has been read of a block: whole lines, the last of which is not empty, and empty lines
behind it. -/
structure BlockText.Holds (b : BlockText) (done : List Char) : Prop where
  eq : b.breaks ++ (b.lastBreak ++ b.text) = done.reverse
  breaks : ∀ c ∈ b.breaks, isBreak c = true
  lastBreak : ∃ x, b.lastBreak = [x] ∧ isBreak x = true
  text : ∀ c ∈ b.text.head?, isBreak c = false

/-- A block holds a line that is not empty and the empty lines behind it. -/
theorem holds_line {text before done : List Char} {leading : Bool} (hne : text ≠ [])
    (htext : ∀ c ∈ text, isBreak c = false) (hx : isBreak x = true)
    (hbs : ∀ c ∈ bs, isBreak c = true) (heq : before.reverse ++ text ++ x :: bs = done) :
    BlockText.Holds ⟨text.reverse ++ before, [x], bs.reverse, leading⟩ done := by
  refine ⟨?_, by simpa using hbs, ⟨x, rfl, hx⟩, ?_⟩
  · rw [← heq]
    simp
  · intro c hc
    rw [List.head?_append, List.head?_reverse, List.getLast?_eq_some_getLast hne,
      Option.some_or] at hc
    cases hc
    exact htext _ (List.getLast_mem hne)

theorem blockLines_stop {b : BlockText} {fuel : Nat} (folded : Bool) (rest : List Char)
    (line index : Nat) :
    blockLines folded 2 fuel b ⟨rest, line, 0, index⟩ = some (b, ⟨rest, line, 0, index⟩) := by
  cases fuel with
  | zero => rfl
  | succ fuel =>
    cases rest with
    | nil => rfl
    | cons c rest => rfl

/-- The lines of a block behind what has been read, from the first character of a line on. -/
theorem blockLines_lines {b : BlockText} {fuel : Nat} {done : List Char} (hfuel : cs.length ≤ fuel)
    (hb : b.breaks ++ (b.lastBreak ++ b.text) = done.reverse)
    (hkept : ∀ c ∈ cs, isBreak c = true → IsKept c) (hne : cs ≠ [])
    (hhead : ∀ c ∈ cs.head?, isBreak c = false) (hlast : ∀ c ∈ cs.getLast?, isBreak c = true)
    (hrest : AtToken rest) (line index : Nat) :
    ∃ b' line' index',
      blockLines false 2 fuel b ⟨Printer.literalLines false cs ++ rest, line, 2, index⟩ =
        some (b', ⟨rest, line', 0, index'⟩) ∧ b'.Holds (done ++ cs) := by
  induction fuel generalizing cs b done line index with
  | zero => exact absurd (List.length_eq_zero_iff.1 (Nat.le_zero.1 hfuel)) hne
  | succ fuel ih =>
    obtain ⟨text, x, cs, rfl, hline, hx⟩ : ∃ line' x cs', cs = line' ++ x :: cs' ∧
        (∀ c ∈ line', isBreak c = false) ∧ isBreak x = true :=
      exists_line ⟨_, List.getLast_mem hne, hlast _ (List.getLast?_eq_some_getLast hne)⟩
    have hk := hkept x (by simp) hx
    obtain ⟨d, ds, rfl⟩ : ∃ d ds, text = d :: ds := by
      cases text with
      | nil => simp [hx] at hhead
      | cons d ds => exact ⟨d, ds, rfl⟩
    obtain ⟨index₁, hrestOfLine⟩ : ∃ index₁, restOfLine [] line 2 index
        (d :: ds ++ x :: (Printer.literalLines true cs ++ rest)) =
          (d :: ds, [x], ⟨Printer.literalLines true cs ++ rest, line + 1, 0, index₁⟩) :=
      restOfLine_line hline hk _
    have hcs : ∀ c ∈ cs, isBreak c = true → IsKept c := fun c hc => hkept c (by simp [hc])
    obtain ⟨bs, cs, _, line₂, index₂, rfl, hbs, hhead', hbreaks⟩ :=
      blockBreaksFrom_lines hcs hrest 0 [] (line + 1) index₁
    rw [literalLines_append_line hline hx, List.append_assoc, List.cons_append, List.cons_append,
      blockLines]
    simp only [bne_self_eq_false, Bool.false_and, Bool.false_eq_true, if_false]
    rw [← List.cons_append, hrestOfLine]
    simp only [hbreaks, List.append_nil]
    rw [List.append_assoc, hb]
    have hnext : BlockText.Holds ⟨(d :: ds).reverse ++ done.reverse, [x], bs.reverse, isBlank d⟩
        (done ++ (d :: ds ++ x :: bs)) :=
      holds_line (List.cons_ne_nil d ds) hline hx hbs (by simp)
    by_cases hempty : cs = []
    · subst hempty
      rw [if_pos rfl, blockLines_stop, List.append_nil]
      exact ⟨_, line₂, index₂, rfl, hnext⟩
    · have hfuel' : cs.length ≤ fuel := by simp at hfuel; omega
      have hlast' : ∀ c ∈ cs.getLast?, isBreak c = true := by
        intro c hc
        refine hlast c ?_
        rw [← List.cons_append, ← List.append_assoc, List.getLast?_append, Option.mem_def.1 hc]
        rfl
      rw [if_neg hempty]
      obtain ⟨b', line₃, index₃, hread, hholds⟩ := ih hfuel' hnext.eq
        (fun c hc => hcs c (List.mem_append_right bs hc)) hempty hhead' hlast' line₂ index₂
      refine ⟨b', line₃, index₃, hread, ?_⟩
      simpa using hholds

/-! ## Whole blocks -/

/-- What of a block stays behind its last line. -/
def BlockText.tail (b : BlockText) : Chomp → List Char
  | .strip => []
  | .clip => b.lastBreak
  | .keep => b.breaks ++ b.lastBreak

/-- The indicators `hints` of a block are read as `header`. -/
def Announces (hints : List Char) (header : BlockHeader) : Prop :=
  ∀ (rest : List Char) (line col index : Nat), ∃ col' index',
    blockHeader ⟨hints ++ '\n' :: rest, line, col, index⟩ =
      (header, ⟨'\n' :: rest, line, col', index'⟩)

theorem blockScalar_lines {hints : List Char} {header : BlockHeader} (h : Announces hints header)
    (hkept : ∀ c ∈ cs, isBreak c = true → IsKept c) (hne : cs ≠ [])
    (hhead : ∀ c ∈ cs.head?, isBreak c = false ∧
      (header.indent = some 2 ∨ header.indent = none ∧ c ≠ ' ' ∧ c ≠ '\t'))
    (hlast : ∀ c ∈ cs.getLast?, isBreak c = true) (hrest : AtToken rest) (line col index : Nat) :
    ∃ (b : BlockText) (line' index' : Nat), blockScalar 0
        ⟨'|' :: (hints ++ '\n' :: (Printer.literalLines true cs ++ rest)), line, col, index⟩ =
      some (String.ofList (b.tail header.chomp ++ b.text).reverse, ⟨rest, line', 0, index'⟩) ∧
        b.Holds cs := by
  obtain ⟨d, ds, rfl⟩ := List.exists_cons_of_ne_nil hne
  obtain ⟨hd, hindent⟩ := hhead d rfl
  obtain ⟨col₁, index₁, hheader⟩ :=
    h (Printer.literalLines true (d :: ds) ++ rest) line (col + 1) (index + 1)
  have hfirst : Printer.literalLines true (d :: ds) ++ rest =
      Printer.indentation ++ d :: (Printer.literalLines false ds ++ rest) := by
    rw [Printer.literalLines, if_neg (by simp [hd]), if_pos rfl, List.append_assoc,
      List.cons_append]
  have hsame : Printer.literalLines false (d :: ds) ++ rest =
      d :: (Printer.literalLines false ds ++ rest) := by
    rw [Printer.literalLines, if_neg (by simp [hd])]
    rfl
  have hlength := length_le_literalLines false (d :: ds)
  obtain ⟨b, line', index', hread, hholds⟩ : ∃ b line' index',
      blockLines false 2 ((d :: (Printer.literalLines false ds ++ rest)).length + 1) {}
        ⟨d :: (Printer.literalLines false ds ++ rest), line + 1, 2, index₁ + 1 + 2⟩ =
        some (b, ⟨rest, line', 0, index'⟩) ∧ b.Holds ([] ++ d :: ds) := by
    rw [← hsame]
    refine blockLines_lines ?_ rfl hkept hne (fun c hc => (hhead c hc).1) hlast hrest _ _
    rw [List.length_append]
    omega
  refine ⟨b, line', index', ?_, hholds⟩
  rw [hfirst] at hheader ⊢
  have hline : ∀ r, skipHeaderLine false line col₁ index₁ ('\n' :: r) =
      some ⟨r, line + 1, 0, index₁ + 1⟩ := fun r => rfl
  simp only [blockScalar, Cursor.peek?, Cursor.skip, List.head?_cons, List.tail_cons, hheader,
    hline, Option.bind_eq_bind, Option.bind_some]
  rcases hindent with hindent | ⟨hindent, hspace, htab⟩
  · simp only [hindent]
    rw [show (if (0 : Int) ≤ 0 then Int.toNat 0 + 2 else 2) = 2 from rfl,
      blockBreaksFrom_indentation (.inl rfl) hd, Option.bind_some]
    show (blockLines false 2 _ {} _).bind _ = _
    rw [hread]
    cases header.chomp <;> rfl
  · simp only [hindent]
    rw [blockBreaksFrom_indentation (.inr ⟨rfl, hspace, htab⟩) hd, Option.bind_some]
    show (blockLines false 2 _ {} _).bind _ = _
    rw [hread]
    cases header.chomp <;> rfl

theorem literalLines_append_feed (atStart : Bool) (cs : List Char) :
    Printer.literalLines atStart (cs ++ ['\n']) = Printer.literalLines atStart cs ++ ['\n'] := by
  induction cs generalizing atStart with
  | nil => rfl
  | cons c cs ih =>
    rw [List.cons_append, Printer.literalLines, Printer.literalLines, ih, ih]
    split
    · rfl
    · rw [List.append_assoc, List.cons_append]

/-- A text whose last line is not empty is held without empty lines behind it. -/
theorem BlockText.Holds.eq_last {b : BlockText} (h : b.Holds (cs ++ [x]))
    (hlast : ∀ c ∈ cs.getLast?, isBreak c = false) :
    b.breaks = [] ∧ b.lastBreak = [x] ∧ b.text = cs.reverse := by
  obtain ⟨y, hy, hbreak⟩ := h.lastBreak
  have heq := h.eq
  rw [hy, List.reverse_append, List.reverse_singleton, List.singleton_append,
    List.singleton_append] at heq
  rw [hy]
  cases hb : b.breaks with
  | nil =>
    rw [hb, List.nil_append, List.cons.injEq] at heq
    exact ⟨rfl, by rw [heq.1], heq.2⟩
  | cons z zs =>
    -- otherwise the line end of the line would stand at the end of `cs`
    rw [hb, List.cons_append, List.cons.injEq] at heq
    rw [← List.head?_reverse, ← heq.2] at hlast
    cases zs with
    | nil => simp [hbreak] at hlast
    | cons u us =>
      have hu := h.breaks u (by simp [hb])
      simp [hu] at hlast

/-! ## Indicators -/

/-- The indicators of a block whose indentation is given if `indented` holds. -/
def hints (indented : Bool) (chomp : Chomp) : List Char :=
  (if indented then ['2'] else []) ++
    match chomp with
    | .strip => ['-']
    | .clip => []
    | .keep => ['+']

theorem announces_hints (indented : Bool) (chomp : Chomp) :
    Announces (hints indented chomp) { chomp, indent := if indented then some 2 else none } := by
  intro rest line col index
  cases indented <;> cases chomp <;> exact ⟨_, _, rfl⟩

/-- What happens to the line ends behind a text that ends with `x` behind `bs`. -/
def chompOf (bs : List Char) (x : Char) : Chomp :=
  if !isBreak x then .strip else if bs.getLast?.any isBreak then .keep else .clip

theorem literalHints_eq (hc : isBreak c = false) (heq : c :: cs = bs ++ [x]) :
    Printer.literalHints (c :: cs) = hints (c == ' ') (chompOf bs x) := by
  have hlast : bs.getLast? = bs.reverse.head? := List.head?_reverse.symm
  rw [Printer.literalHints, heq, List.reverse_append, chompOf, hlast]
  cases hbs : bs.reverse with
  | nil =>
    -- `x` is `c`, which is no line end
    obtain rfl := List.reverse_eq_nil_iff.1 hbs
    cases heq
    simp [hints, hc]
  | cons d ds => cases hx : isBreak x <;> cases hd : isBreak d <;> simp [hints, hc, hx, hd]

/-- The line end that is written behind a text that ends with `x`. -/
def lineEndOf (x : Char) : List Char := if isBreak x then [] else ['\n']

theorem getLast?_append_lineEndOf (bs : List Char) (x : Char) :
    ∀ c ∈ (bs ++ [x] ++ lineEndOf x).getLast?, isBreak c = true := by
  intro c hc
  rw [lineEndOf] at hc
  split at hc
  · rename_i hx
    rw [List.append_nil, List.getLast?_concat] at hc
    cases hc
    exact hx
  · rw [List.getLast?_concat] at hc
    cases hc
    rfl

theorem isKept_append_lineEndOf (hkept : ∀ c ∈ cs, isBreak c = true → IsKept c) (x : Char) :
    ∀ c ∈ cs ++ lineEndOf x, isBreak c = true → IsKept c := by
  refine List.forall_mem_append.2 ⟨hkept, fun c hc _ => ?_⟩
  rw [lineEndOf] at hc
  split at hc
  · cases hc
  · exact .inl (List.mem_singleton.1 hc)

theorem literalLines_append_lineEndOf (cs : List Char) (x : Char) :
    Printer.literalLines true (cs ++ lineEndOf x) =
      Printer.literalLines true cs ++ lineEndOf x := by
  rw [lineEndOf]
  split
  · rw [List.append_nil, List.append_nil]
  · exact literalLines_append_feed true cs

/-- What is kept of the lines of a text, and the line end that a text without one gets, is the
text. -/
theorem BlockText.Holds.reverse_eq {b : BlockText} (h : b.Holds (bs ++ [x] ++ lineEndOf x)) :
    (b.tail (chompOf bs x) ++ b.text).reverse = bs ++ [x] := by
  rw [lineEndOf] at h
  cases hx : isBreak x with
  | false =>
    rw [hx, if_neg Bool.false_ne_true] at h
    obtain ⟨-, -, htext⟩ := h.eq_last (by simp [hx])
    simp [chompOf, hx, BlockText.tail, htext]
  | true =>
    rw [hx, if_pos rfl, List.append_nil] at h
    cases hlast : bs.getLast?.any isBreak with
    | false =>
      obtain ⟨-, hbreak, htext⟩ := h.eq_last (by simpa [Option.any_eq_false] using hlast)
      simp [chompOf, hx, hlast, BlockText.tail, hbreak, htext]
    | true =>
      rw [← List.reverse_reverse (bs ++ [x]), ← h.eq]
      simp [chompOf, hx, hlast, BlockText.tail]

/-! ## Literal blocks -/

theorem isKept_of_canBeLiteral (h : Printer.canBeLiteral cs = true) :
    ∀ c ∈ cs, isBreak c = true → IsKept c := by
  intro c hc hbreak
  simp only [Printer.canBeLiteral, Printer.needsEscape, Bool.and_eq_true, Bool.not_eq_true',
    List.any_eq_false, bne_iff_ne, not_and, Bool.not_eq_false] at h
  refine isKept_of_isShown (h.2 c hc ?_) hbreak
  rintro rfl
  cases hbreak

/-- **A literal block is read as the text it shows**, if that starts with neither a line end nor a
tab. -/
theorem blockScalar_literal (h : Printer.canBeLiteral cs = true) (hne : cs ≠ [])
    (hhead : ∀ c ∈ cs.head?, isBreak c = false ∧ c ≠ '\t') (hrest : AtToken rest)
    (line col index : Nat) :
    ∃ line' index', blockScalar 0 ⟨Printer.literal cs ++
        (if (cs.getLast?.map isBreak).getD false then [] else ['\n']) ++ rest, line, col, index⟩ =
      some (String.ofList cs, ⟨rest, line', 0, index'⟩) := by
  have hkept := isKept_of_canBeLiteral h
  obtain ⟨c, cs, rfl⟩ := List.exists_cons_of_ne_nil hne
  obtain ⟨bs, x, heq⟩ : ∃ bs x, c :: cs = bs ++ [x] :=
    ⟨_, _, (List.dropLast_concat_getLast hne).symm⟩
  obtain ⟨hc, htab⟩ := hhead c rfl
  have hannounces := announces_hints (c == ' ') (chompOf bs x)
  rw [← literalHints_eq hc heq] at hannounces
  have hfirst : ∀ d ∈ (c :: cs ++ lineEndOf x).head?, isBreak d = false ∧
      ((if (c == ' ') = true then some 2 else none) = some 2 ∨
        (if (c == ' ') = true then some 2 else none) = none ∧ d ≠ ' ' ∧ d ≠ '\t') := by
    rintro d hd
    cases hd
    refine ⟨hc, ?_⟩
    by_cases hspace : c = ' '
    · simp [hspace]
    · simp [hspace, htab]
  have hlast := getLast?_append_lineEndOf bs x
  rw [← heq] at hlast
  obtain ⟨b, line', index', hread, hholds⟩ := blockScalar_lines hannounces
    (isKept_append_lineEndOf hkept x) (by simp) hfirst hlast hrest line col index
  refine ⟨line', index', ?_⟩
  rw [heq] at hholds
  rw [hholds.reverse_eq, ← heq] at hread
  have hend : (if ((c :: cs).getLast?.map isBreak).getD false then [] else ['\n']) =
      lineEndOf x := by
    rw [heq, List.getLast?_concat]
    rfl
  rw [← hread, hend, Printer.literal, literalLines_append_lineEndOf]
  simp [hc]

end StackLang.Yaml

import StackLang.Proofs.Yaml.BlockScalar
import StackLang.Proofs.Yaml.Reading

/-!
# Scanning blocks

Outside brackets the scanner reads a text line by line: keys and their values, and the dashes of
items.  Each of these takes it from one place to the next, wherever it comes from (`reaches_key`,
`reaches_item`, `reaches_plain`, `reachesSome_quoted`, `reachesSome_literal`, `reaches_brackets`).
At the end of the text it closes the blocks that are still open (`reads_end`), so a text that takes
it there has the tokens read on the way (`exists_scan_eq`).
-/

set_option autoImplicit false

namespace StackLang.Yaml

variable {c ch : Char} {cs after rest : List Char} {line col index k : Nat} {keyOk : Bool}

/-! ## Gaps -/

theorem gapFrom_stop {inFlow : Bool} (hrest : AtToken rest) :
    gapFrom inFlow keyOk 0 .blanks line col index rest = (keyOk, ⟨rest, line, col, index⟩) := by
  cases rest with
  | nil => rfl
  | cons c rest =>
    obtain ⟨hblank, hbreak, hnumber⟩ := hrest c rfl
    obtain ⟨hspace, htab⟩ := isBlank_eq_false_iff.1 hblank
    simp [gapFrom, hbreak, hspace, htab, hnumber]

theorem gapFrom_spaces (hrest : AtToken rest) :
    gapFrom false keyOk 0 .blanks line col index (List.replicate k ' ' ++ rest) =
      (keyOk, ⟨rest, line, col + k, index + k⟩) := by
  induction k generalizing col index with
  | zero => exact gapFrom_stop hrest
  | succ k ih =>
    rw [List.replicate_succ, List.cons_append, gapFrom]
    simp only [Nat.not_lt_zero, decide_false, Bool.and_false, Bool.false_eq_true, if_false,
      show isBreak ' ' = false from rfl, beq_self_eq_true, Bool.true_or, if_true]
    rw [ih, Nat.add_assoc, Nat.add_assoc, Nat.add_comm 1 k]

theorem gapFrom_line (hrest : AtToken rest) :
    gapFrom false keyOk 0 .blanks line col index ('\n' :: (List.replicate k ' ' ++ rest)) =
      (true, ⟨rest, line + 1, k, index + 1 + k⟩) := by
  rw [gapFrom]
  simp only [Nat.not_lt_zero, decide_false, Bool.and_false, Bool.false_eq_true, if_false,
    show isBreak '\n' = true from rfl, if_true]
  have hspaces := @gapFrom_spaces rest (line + 1) 0 (index + 1) k true hrest
  rw [Nat.zero_add] at hspaces
  rw [← hspaces]
  simp

/-- No comment follows where a line ends or a token stands. -/
theorem skipComment_eq (h : ∀ c ∈ (cs.dropWhile isBlank).head?, c ≠ '#') :
    (Cursor.mk cs line col index).skipComment = ⟨cs, line, col, index⟩ := by
  have hget : cs[(cs.takeWhile isBlank).length]? = (cs.dropWhile isBlank).head? := by
    conv => lhs; rw [← List.takeWhile_append_dropWhile (p := isBlank) (l := cs)]
    rw [List.getElem?_append_right (by simp), List.head?_eq_getElem?]
    simp
  rw [Cursor.skipComment]
  simp only [hget]
  rw [if_neg]
  intro hif
  rw [Bool.and_eq_true, beq_iff_eq] at hif
  exact h _ hif.2 rfl

/-! ## Plain scalars -/

theorem IsPlain.first (h : IsPlain (c :: cs)) (rest : List Char) :
    isBlank c = false ∧ isBreak c = false ∧ Scanner.isIndicator c = false ∧
      (c = '-' ∨ c = '?' ∨ c = ':' → atGap (cs ++ '\n' :: rest) = false) := by
  obtain ⟨-, hbreak, htab, hhead, -, hindicator⟩ := h
  obtain ⟨hc, hcs⟩ := List.forall_mem_cons.1 hbreak
  simp only [Printer.hasIndicator, Bool.or_eq_false_iff] at hindicator
  obtain ⟨⟨⟨-, hleading⟩, hgap⟩, -⟩ := hindicator
  refine ⟨?_, hc, ?_, fun hmark => ?_⟩
  · exact isBlank_eq_false_iff.2 ⟨fun hspace => hhead (congrArg some hspace),
      htab _ List.mem_cons_self⟩
  · simp only [Printer.isLeadingIndicator, List.contains_cons, List.contains_nil, Bool.or_false,
      Bool.or_eq_false_iff] at hleading
    simp only [Scanner.isIndicator, List.contains_cons, List.contains_nil, Bool.or_false, hleading]
  · rw [atGap_append hcs]
    rcases hmark with rfl | rfl | rfl <;> simpa using hgap

theorem IsPlain.atToken (h : IsPlain cs) (rest : List Char) : AtToken (cs ++ rest) := by
  obtain ⟨c, cs, rfl⟩ := List.exists_cons_of_ne_nil h.ne_nil
  obtain ⟨hblank, hbreak, hindicator, -⟩ := h.first rest
  rintro d hd
  cases hd
  refine ⟨hblank, hbreak, ?_⟩
  rintro rfl
  cases hindicator

/-! ## Words -/

/-- Words of small letters, which may stand as keys. -/
structure IsWord (cs : List Char) : Prop where
  ne_nil : cs ≠ []
  isLower : ∀ c ∈ cs, c.isLower = true

theorem isBlank_of_isLower (h : c.isLower = true) : isBlank c = false :=
  isBlank_eq_false_iff.2 ⟨ne_of_class h rfl, ne_of_class h rfl⟩

theorem isBreak_of_ascii (hle : 0x20 ≤ c.toNat) (hlt : c.toNat < 0x80) : isBreak c = false := by
  have hfeed : c ≠ '\n' := by rintro rfl; exact absurd hle (by decide)
  have hreturn : c ≠ '\r' := by rintro rfl; exact absurd hle (by decide)
  simp only [isBreak, beq_false_of_ne hfeed, beq_false_of_ne hreturn, Bool.false_or,
    Bool.or_eq_false_iff, beq_eq_false_iff_ne]
  omega

theorem toNat_of_isLower (h : c.isLower = true) : 97 ≤ c.toNat ∧ c.toNat ≤ 122 := by
  have hrange : (decide ('a' ≤ c) && decide (c ≤ 'z')) = true := h
  rw [Bool.and_eq_true, decide_eq_true_eq, decide_eq_true_eq] at hrange
  exact hrange

theorem isBreak_of_isLower (h : c.isLower = true) : isBreak c = false := by
  obtain ⟨hle, hge⟩ := toNat_of_isLower h
  exact isBreak_of_ascii (by omega) (by omega)

theorem isIndicator_of_isLower (h : c.isLower = true) : Scanner.isIndicator c = false := by
  have hge := toNat_of_isLower h
  rw [Scanner.isIndicator, Bool.or_eq_false_iff, beq_eq_false_iff_ne]
  refine ⟨?_, by omega⟩
  rw [← Bool.not_eq_true, List.contains_iff_mem]
  intro hmem
  have hall : ∀ d ∈ [',', '[', ']', '{', '}', '#', '&', '*', '!', '|', '>', '\'', '"', '%', '@'],
      d.isLower = false := by simp
  exact ne_of_class h (hall c hmem) rfl

theorem IsWord.atToken (h : IsWord cs) (rest : List Char) : AtToken (cs ++ rest) := by
  obtain ⟨c, cs, rfl⟩ := List.exists_cons_of_ne_nil h.ne_nil
  have hc := h.isLower c List.mem_cons_self
  rintro d hd
  cases hd
  exact ⟨isBlank_of_isLower hc, isBreak_of_isLower hc, ne_of_class hc rfl⟩

theorem plainFrom_word {f : Fold} {done : List Char} {indent : Nat} (h : Folding false f done)
    (hcs : ∀ c ∈ cs, c.isLower = true) (hlast : (done ++ cs).getLast? ≠ some ' ')
    (hafter : atGap after = true) :
    plainFrom false indent false f line col index (cs ++ ':' :: after) =
      some ({ text := (done ++ cs).reverse },
        ⟨':' :: after, line, col + cs.length, index + cs.length⟩) := by
  induction cs generalizing f done col index with
  | nil =>
    rw [List.append_nil] at hlast
    rw [List.nil_append, plainFrom, h.eq_text hlast, List.append_nil]
    simp [hafter, isBlank, isBreak]
  | cons c cs ih =>
    obtain ⟨hc, hcs⟩ := List.forall_mem_cons.1 hcs
    rw [List.append_cons done] at hlast
    have hcolon : c ≠ ':' := ne_of_class hc rfl
    rw [List.cons_append, plainFrom, List.append_cons done]
    simp only [isBlank_of_isLower hc, isBreak_of_isLower hc, beq_false_of_ne hcolon,
      Bool.false_and, Bool.or_self, Bool.false_eq_true, if_false]
    rw [ih (h.put c) hcs hlast, List.length_cons, Nat.add_right_comm col, Nat.add_right_comm index]
    rfl

theorem plain_word {indent : Nat} (hcs : IsWord cs) (hafter : atGap after = true) :
    plain false indent ⟨cs ++ ':' :: after, line, col, index⟩ =
      some (String.ofList cs, ⟨':' :: after, line, col + cs.length, index + cs.length⟩, false) := by
  have hlast : ([] ++ cs).getLast? ≠ some ' ' := by
    intro h
    have hspace := hcs.isLower _ (List.mem_of_getLast? h)
    cases hspace
  rw [plain]
  simp only [plainFrom_word folding_nil hcs.isLower hlast hafter, Option.map_some, Fold.value,
    List.nil_append, List.reverse_reverse]

/-- A spot in front of the last of `count` tokens that no longer may start a key and keeps no
token. -/
structure KeySpot.IsPast (k : KeySpot) (count : Nat) : Prop where
  isClosed : k.isOpen = false
  isKept : k.isKept = true
  number : k.number ≤ count - 1

theorem KeySpot.IsPast.mono {spot : KeySpot} {m n : Nat} (h : spot.IsPast m) (hle : m ≤ n) :
    spot.IsPast n :=
  ⟨h.isClosed, h.isKept, Nat.le_trans h.number (Nat.sub_le_sub_right hle 1)⟩

theorem KeySpot.IsPast.cons {spot : KeySpot} {n : Nat} (h : spot.IsPast n) : spot.IsPast (n + 1) :=
  h.mono (Nat.le_succ n)

namespace Scanner

variable {s t : Scanner} {token : Token} {number : Nat} {blocks : List Nat} {tokens : List Lexeme}

/-! ## Blocks -/

/-- Blocks to the right of a column are closed, the last one first. -/
theorem closeBlocks_append {shut : List Nat} {column : Int} (hshut : ∀ b ∈ shut, column < (b : Nat))
    (hblocks : ∀ b ∈ blocks.head?, (b : Int) ≤ column) :
    closeBlocks line column (shut ++ blocks) s =
      { s with
        tokens := List.replicate shut.length ⟨.blockEnd, line⟩ ++ s.tokens,
        count := s.count + shut.length, blocks } := by
  induction shut generalizing s with
  | nil =>
    cases blocks with
    | nil => rfl
    | cons b blocks =>
      have hb : ¬column < b := Int.not_lt.2 (hblocks b rfl)
      rw [List.nil_append, closeBlocks, if_neg hb]
      rfl
  | cons b shut ih =>
    obtain ⟨hb, hshut⟩ := List.forall_mem_cons.1 hshut
    rw [List.cons_append, closeBlocks, if_pos hb, ih hshut, push, List.length_cons,
      List.replicate_succ', List.append_assoc, Nat.add_assoc, Nat.add_comm 1]
    rfl

/-- The tokens that open a block in a column, unless it is the innermost one. -/
def opening (blocks : List Nat) (col : Nat) (token : Token) (line : Nat) : List Lexeme :=
  if blocks.head? = some col then [] else [⟨token, line⟩]

/-- The open blocks when one in a column has been opened, unless it is the innermost one. -/
def rolled (blocks : List Nat) (col : Nat) : List Nat :=
  if blocks.head? = some col then blocks else col :: blocks

/-- A block is opened in front of the last `m` tokens. -/
theorem roll_eq {m : Nat} (houter : s.outer = []) (hgiven : s.given = 0)
    (hnumber : s.count = number + m) (hcol : ∀ b ∈ s.blocks.head?, b ≤ col)
    (hdepth : s.blocks.length < depthLimit) :
    s.roll col number token line =
      some { s with
        tokens := s.tokens.take m ++ (opening s.blocks col token line ++ s.tokens.drop m),
        count := s.count + (opening s.blocks col token line).length,
        blocks := rolled s.blocks col } := by
  have hafter : s.count - number = m := by omega
  by_cases hsame : s.blocks.head? = some col
  · obtain ⟨blocks, hblocks⟩ : ∃ blocks, s.blocks = col :: blocks := by
      cases h : s.blocks with
      | nil => rw [h] at hsame; cases hsame
      | cons b blocks => rw [h] at hsame; cases hsame; exact ⟨blocks, rfl⟩
    rw [roll, if_pos (by simp [indent, hblocks]), opening, rolled, if_pos hsame, if_pos hsame,
      List.nil_append, List.take_append_drop]
    rfl
  · have hright : ¬((col : Int) ≤ s.indent) := by
      rw [indent]
      cases h : s.blocks with
      | nil => simp; omega
      | cons b blocks =>
        have hle := hcol b (by rw [h]; rfl)
        have hne : b ≠ col := by rintro rfl; exact hsame (by rw [h]; rfl)
        simp only
        omega
    rw [roll, if_neg (by simp [inFlow, houter, hright]), if_neg (Nat.not_le.2 hdepth), opening,
      rolled, if_neg hsame, if_neg hsame, insert, hgiven, if_neg (Nat.not_lt_zero _), hafter]
    rfl

/-! ## Places -/

/-- A place between two tokens outside brackets: the tokens in front of it with the last one first,
the open blocks, whether a key may start, and the text behind the gap. -/
structure Place where
  tokens : List Lexeme
  blocks : List Nat
  keyOk : Bool
  rest : List Char
  line : Nat
  col : Nat

/-- The scanner at a place. -/
def Place.scanner (p : Place) (index : Nat) (spot : KeySpot) : Scanner :=
  { at_ := ⟨p.rest, p.line, p.col, index⟩, tokens := p.tokens, count := p.tokens.length,
    blocks := p.blocks, spot, keyOk := p.keyOk }

/-- A scanner comes to a place when it skips the gap that it is in front of. -/
inductive ComesTo (p : Place) : Scanner → Prop
  | mk {at_ : Cursor} {keyOk : Bool} {index : Nat} {spot : KeySpot}
      (hgap : skipGap false keyOk 0 at_ = (p.keyOk, ⟨p.rest, p.line, p.col, index⟩))
      (hspot : spot.IsPast p.tokens.length) :
      ComesTo p { p.scanner index spot with at_, keyOk }

/-- A place when the blocks to the right of its column are closed, of which `blocks` stay open. -/
def Place.closed (p : Place) (shut : Nat) (blocks : List Nat) : Place :=
  { p with tokens := List.replicate shut ⟨.blockEnd, p.line⟩ ++ p.tokens, blocks }

theorem unroll_eq_self {column : Int} (houter : s.outer = [])
    (hblocks : ∀ b ∈ s.blocks.head?, (b : Int) ≤ column) : s.unroll column = s := by
  rw [unroll, if_neg (by simp [inFlow, houter]), ← List.nil_append s.blocks,
    closeBlocks_append (List.forall_mem_nil _) hblocks]
  rfl

theorem unroll_scanner {p : Place} {shut : List Nat} {column : Int}
    (hsplit : p.blocks = shut ++ blocks) (hshut : ∀ b ∈ shut, column < (b : Nat))
    (hblocks : ∀ b ∈ blocks.head?, (b : Int) ≤ column) (index : Nat) (spot : KeySpot) :
    (p.scanner index spot).unroll column = (p.closed shut.length blocks).scanner index spot := by
  rw [unroll, if_neg (by simp [inFlow, Place.scanner])]
  show closeBlocks p.line column p.blocks _ = _
  rw [hsplit, closeBlocks_append hshut hblocks]
  simp [Place.closed, Place.scanner, Nat.add_comm]

theorem unroll_col {p : Place} {shut : List Nat} (hsplit : p.blocks = shut ++ blocks)
    (hshut : ∀ b ∈ shut, p.col < b) (hblocks : ∀ b ∈ blocks.head?, b ≤ p.col) (index : Nat)
    (spot : KeySpot) :
    (p.scanner index spot).unroll p.col = (p.closed shut.length blocks).scanner index spot :=
  unroll_scanner hsplit (fun b hb => Int.ofNat_lt.2 (hshut b hb))
    (fun b hb => Int.ofNat_le.2 (hblocks b hb)) index spot

theorem forgetWindow_eq (h : s.window = 0) (index : Nat) :
    (if s.window < index + 4 then { s with window := 0 } else s) = s := by
  cases s
  cases h
  exact ite_self _

/-- A token is read behind the gap, when the blocks to its right are closed. -/
theorem next_eq_some {u : Scanner} {at_ : Cursor}
    (hgap : skipGap s.inFlow s.keyOk s.window s.at_ = (keyOk, at_))
    (hunroll : ({ s with at_, keyOk } : Scanner).unroll at_.col = u) (hcut : u.isCut = false)
    (hwindow : u.window = 0) (hrest : at_.rest = ch :: rest)
    (hch : at_.col ≠ 0 ∨ ch ≠ '%' ∧ ch ≠ '-' ∧ ch ≠ '.') (hread : u.readToken ch rest = some t)
    (ht : t.isCut = false) : s.next = some t := by
  have hdirective : (at_.col == 0 && ch == '%') = false := by
    rcases hch with hcol | ⟨hch, -, -⟩
    · rw [beq_false_of_ne hcol, Bool.false_and]
    · rw [beq_false_of_ne hch, Bool.and_false]
  have hmarker : at_.atMarker = false := by
    rcases hch with hcol | ⟨-, hdash, hdot⟩
    · exact not_atMarker hcol
    · rw [Cursor.atMarker, hrest]
      split
      · rename_i heq; cases heq; exact absurd rfl hdash
      · rename_i heq; cases heq; exact absurd rfl hdot
      · exact Bool.and_false _
  simp only [next, hgap, hunroll, forgetWindow_eq hwindow]
  simp only [hcut, Bool.false_and, Bool.false_eq_true, if_false, hrest, hdirective, hmarker]
  simp only [hread, Option.bind_eq_bind, Option.bind_some, ht, Bool.false_and, Bool.false_eq_true,
    if_false]
  rfl

theorem next_eq_finish {u : Scanner} {at_ : Cursor}
    (hgap : skipGap s.inFlow s.keyOk s.window s.at_ = (keyOk, at_))
    (hunroll : ({ s with at_, keyOk } : Scanner).unroll at_.col = u) (hcut : u.isCut = false)
    (hwindow : u.window = 0) (hrest : at_.rest = []) (hend : u.endBlocks = some t)
    (ht : t.isCut = false) : s.next = some (t.push .finish at_.line) := by
  simp only [next, hgap, hunroll, forgetWindow_eq hwindow]
  simp only [hcut, Bool.false_and, Bool.false_eq_true, if_false, hrest, hend, Option.map_some,
    Option.bind_eq_bind, Option.bind_some]
  simp only [push, ht, Bool.false_and, Bool.false_eq_true, if_false]
  rfl

/-! ## From place to place -/

theorem run_succ (h : s.next = some t) (hkept : t.spot.isKept = true)
    (hfinish : ∀ l ∈ t.tokens.head?, l.token ≠ .finish) (fuel : Nat) :
    s.run (fuel + 1) = t.run fuel := by
  rw [run]
  simp only [h, hkept, if_true]
  split
  · rename_i heq
    rw [heq] at hfinish
    exact absurd rfl (hfinish _ rfl)
  · rfl

/-- What a scanner reads that comes to a place is what it reads at the place. -/
theorem ComesTo.exists_next {p : Place} (h : ComesTo p s) {shut : List Nat}
    (heq : p.blocks = shut ++ blocks) (hshut : ∀ b ∈ shut, p.col < b)
    (hblocks : ∀ b ∈ blocks.head?, b ≤ p.col) (hrest : p.rest = ch :: rest)
    (hch : p.col ≠ 0 ∨ ch ≠ '%' ∧ ch ≠ '-' ∧ ch ≠ '.') :
    ∃ index spot, spot.IsPast p.tokens.length ∧ ∀ t : Scanner,
      ((p.closed shut.length blocks).scanner index spot).readToken ch rest = some t →
        t.isCut = false → s.next = some t := by
  cases h with
  | @mk at_ keyOk index spot hgap hspot =>
    refine ⟨index, spot, hspot, fun t hread ht => ?_⟩
    exact next_eq_some hgap (unroll_col heq hshut hblocks index spot) rfl rfl hrest hch hread ht

/-- The scanner gets from a place to one of others, with a token for each character at most. -/
def ReachesSome (p : Place) (q : Nat → Place) : Prop :=
  ∀ s, ComesTo p s → ∃ i t n, ComesTo (q i) t ∧ n + (q i).rest.length ≤ p.rest.length ∧
    ∀ fuel, s.run (fuel + n) = t.run fuel

/-- The scanner gets from one place to another. -/
def Reaches (p q : Place) : Prop := ReachesSome p fun _ => q

theorem ReachesSome.trans {p : Place} {q r : Nat → Place} (hpq : ReachesSome p q)
    (hqr : ∀ i, ReachesSome (q i) r) : ReachesSome p r := by
  intro s hs
  obtain ⟨i, t, n, ht, hn, hrun⟩ := hpq s hs
  obtain ⟨j, u, m, hu, hm, hrun'⟩ := hqr i t ht
  refine ⟨j, u, m + n, hu, by omega, fun fuel => ?_⟩
  rw [← Nat.add_assoc, hrun, hrun']

theorem ReachesSome.comp {p : Place} {q : Nat → Place} {f : Nat → Nat}
    (h : ReachesSome p fun i => q (f i)) : ReachesSome p q := by
  intro s hs
  obtain ⟨i, t, n, ht, hn, hrun⟩ := h s hs
  exact ⟨f i, t, n, ht, hn, hrun⟩

theorem Reaches.some {p : Place} {q : Nat → Place} {i : Nat} (h : Reaches p (q i)) :
    ReachesSome p q :=
  ReachesSome.comp (f := fun _ => i) h

theorem ReachesSome.refl (p : Place) : ReachesSome p fun _ => p :=
  fun s hs => ⟨0, s, 0, hs, Nat.le_of_eq (Nat.zero_add _), fun _ => rfl⟩

theorem Reaches.trans {p q r : Place} (hpq : Reaches p q) (hqr : Reaches q r) : Reaches p r :=
  ReachesSome.trans hpq fun _ => hqr

theorem ComesTo.exists_spot {p : Place} (h : ComesTo p s) :
    s.isCut = false ∧ s.tokens = p.tokens ∧ s.spot.isKept = true := by
  cases h with
  | mk hgap hspot => exact ⟨rfl, rfl, hspot.isKept⟩

theorem comesTo_scanner {p : Place} {spot : KeySpot} (hrest : AtToken p.rest)
    (hspot : spot.IsPast p.tokens.length) (index : Nat) : ComesTo p (p.scanner index spot) :=
  .mk (gapFrom_stop hrest) hspot

/-- At the end of a line a scanner comes to the start of the next. -/
theorem comesTo_line {p : Place} {spot : KeySpot} (hkey : p.keyOk = true) (hrest : AtToken p.rest)
    (hline : p.line = line + 1) (hspot : spot.IsPast p.tokens.length) (col index : Nat)
    (keyOk : Bool) :
    ComesTo p { p.scanner (index + 1 + p.col) spot with
      at_ := ⟨'\n' :: (List.replicate p.col ' ' ++ p.rest), line, col, index⟩, keyOk } := by
  refine .mk ?_ hspot
  rw [hkey, hline]
  exact gapFrom_line hrest

theorem comesTo_space {p : Place} {spot : KeySpot} (hcol : p.col = col + 1) (hrest : AtToken p.rest)
    (hspot : spot.IsPast p.tokens.length) (index : Nat) :
    ComesTo p { p.scanner (index + 1) spot with at_ := ⟨' ' :: p.rest, p.line, col, index⟩ } := by
  refine .mk ?_ hspot
  rw [hcol]
  exact gapFrom_spaces (k := 1) hrest

/-- One token takes the scanner to a place behind it. -/
theorem reachesSome_of_readToken {p : Place} {q : Nat → Place} {shut : List Nat}
    (heq : p.blocks = shut ++ blocks) (hshut : ∀ b ∈ shut, p.col < b)
    (hblocks : ∀ b ∈ blocks.head?, b ≤ p.col) (hrest : p.rest = ch :: rest)
    (hch : p.col ≠ 0 ∨ ch ≠ '%' ∧ ch ≠ '-' ∧ ch ≠ '.')
    (hread : ∀ index spot, spot.IsPast p.tokens.length → ∃ i t,
      ((p.closed shut.length blocks).scanner index spot).readToken ch rest = some t ∧
        ComesTo (q i) t)
    (hfinish : ∀ i, ∀ l ∈ (q i).tokens.head?, l.token ≠ .finish)
    (hlength : ∀ i, (q i).rest.length < p.rest.length) : ReachesSome p q := by
  intro s hs
  obtain ⟨index, spot, hspot, hnext⟩ := hs.exists_next heq hshut hblocks hrest hch
  obtain ⟨i, t, ht, hq⟩ := hread index spot hspot
  obtain ⟨hcut, htokens, hkept⟩ := hq.exists_spot
  have hlast := hfinish i
  rw [← htokens] at hlast
  refine ⟨i, t, 1, hq, ?_, run_succ (hnext t ht hcut) hkept hlast⟩
  have := hlength i
  omega

theorem reaches_of_readToken {p q : Place} (hblocks : ∀ b ∈ p.blocks.head?, b ≤ p.col)
    (hrest : p.rest = ch :: rest) (hch : p.col ≠ 0 ∨ ch ≠ '%' ∧ ch ≠ '-' ∧ ch ≠ '.')
    (hread : ∀ index spot, spot.IsPast p.tokens.length → ∃ t,
      (p.scanner index spot).readToken ch rest = some t ∧ ComesTo q t)
    (hfinish : ∀ l ∈ q.tokens.head?, l.token ≠ .finish)
    (hlength : q.rest.length < p.rest.length) : Reaches p q :=
  reachesSome_of_readToken (List.nil_append _).symm (List.forall_mem_nil _) hblocks hrest hch
    (fun index spot hspot => ⟨0, hread index spot hspot⟩) (fun _ => hfinish) (fun _ => hlength)

/-! ## Plain scalars -/

theorem startsPlain_eq (hblank : isBlank c = false) (hbreak : isBreak c = false)
    (hindicator : isIndicator c = false) (hgap : c = '-' ∨ c = '?' ∨ c = ':' → atGap rest = false) :
    startsPlain false c rest = true := by
  rw [startsPlain, hblank, hbreak, hindicator, if_neg (by simp)]
  by_cases hdash : c = '-'
  · have hrest := hgap (.inl hdash)
    cases rest with
    | nil => cases hrest
    | cons d rest => simp [atGap] at hrest; simp [hdash, hrest]
  · rw [if_neg (by simpa using hdash)]
    by_cases hmark : c = '?' ∨ c = ':'
    · rw [if_pos (by simpa using hmark), hgap (.inr hmark)]
      rfl
    · rw [if_neg (by simpa using hmark)]

theorem readToken_plain (houter : s.outer = []) (hblank : isBlank c = false)
    (hbreak : isBreak c = false) (hindicator : isIndicator c = false)
    (hgap : c = '-' ∨ c = '?' ∨ c = ':' → atGap rest = false) :
    s.readToken c rest = s.readPlain.map fun (t, broken) =>
      if broken then t else { t with at_ := t.at_.skipComment } := by
  have hflow : s.inFlow = false := by rw [inFlow, houter]; rfl
  have hstarts := startsPlain_eq hblank hbreak hindicator hgap
  have hdash : (c == '-' && atGap rest) = false := by
    rw [Bool.and_eq_false_imp, beq_iff_eq]
    exact fun h => hgap (.inl h)
  have hask : (c == '?' && atGap rest) = false := by
    rw [Bool.and_eq_false_imp, beq_iff_eq]
    exact fun h => hgap (.inr (.inl h))
  have hcolon : (c == ':' && atGap rest) = false := by
    rw [Bool.and_eq_false_imp, beq_iff_eq]
    exact fun h => hgap (.inr (.inr h))
  simp only [isIndicator, List.contains_cons, List.contains_nil, Bool.or_false,
    Bool.or_eq_false_iff] at hindicator
  simp only [readToken, hindicator, hflow, hdash, hask, hcolon, hstarts, Bool.false_or,
    Bool.or_self, Bool.false_and, Bool.false_eq_true, if_false, if_true]
  cases s.readPlain with
  | none => rfl
  | some r =>
    obtain ⟨t, broken⟩ := r
    cases broken <;> rfl

/-- A place behind a scalar, which goes on with `rest` on another line. -/
def Place.afterScalar (p : Place) (quoted : Bool) (text rest : List Char) (line col : Nat) :
    Place :=
  { p with
    tokens := ⟨.scalar quoted (String.ofList text), p.line⟩ :: p.tokens, keyOk := true, rest, line,
    col }

/-- A plain scalar is read with the line end behind it. -/
theorem reaches_plain {p : Place} {block : Nat} (hkey : p.keyOk = false)
    (hblocks : p.blocks = block :: blocks) (hcol : block < p.col)
    (heq : p.rest = cs ++ '\n' :: (List.replicate k ' ' ++ rest)) (hcs : IsPlain cs)
    (hk : k ≤ block) (hrest : AtToken rest) :
    Reaches p (p.afterScalar false cs rest (p.line + 1) k) := by
  obtain ⟨c, cs, rfl⟩ := List.exists_cons_of_ne_nil hcs.ne_nil
  obtain ⟨hblank, hbreak, hindicator, hgap⟩ := hcs.first (List.replicate k ' ' ++ rest)
  rw [List.cons_append] at heq
  refine reaches_of_readToken ?_ heq (.inl (Nat.ne_zero_of_lt hcol)) ?_
    (by simp [Place.afterScalar]) ?_
  · rw [hblocks]
    rintro b hb
    cases hb
    exact Nat.le_of_lt hcol
  · intro index spot hspot
    have hplain : plain false (block + 1) ⟨p.rest, p.line, p.col, index⟩ =
        some (String.ofList (c :: cs),
          ⟨rest, p.line + 1, k, index + (c :: cs).length + 1 + k⟩, true) := by
      rw [heq]
      exact plain_line hcs hcol (Nat.lt_succ_of_le hk) hrest
    refine ⟨_, ?_, comesTo_scanner hrest hspot.cons (index + (c :: cs).length + 1 + k)⟩
    have hindent : ((p.scanner index spot).indent + 1).toNat = block + 1 := by
      simp only [indent, Place.scanner, hblocks]
      rfl
    have hsave : (p.scanner index spot).saveKey = some (p.scanner index spot) := by
      simp [saveKey, Place.scanner, hkey]
    rw [readToken_plain rfl hblank hbreak hindicator hgap, readPlain, hsave]
    simp only [Option.bind_eq_bind, Option.bind_some, hindent]
    show Option.map _ ((plain false (block + 1) ⟨p.rest, p.line, p.col, index⟩).bind _) = _
    rw [hplain]
    rfl
  · simp [heq, Place.afterScalar]
    omega

/-! ## Quoted scalars -/

theorem readToken_quoted (hch : ch = '\'' ∨ ch = '"') :
    s.readToken ch rest =
      s.readQuoted.map fun t => { t with at_ := t.at_.skipComment } := by
  rcases hch with rfl | rfl <;> cases h : s.readQuoted <;> simp [readToken, h]

/-- A quoted scalar takes the scanner to the line behind it. -/
theorem reachesSome_quoted {p : Place} {written : List Char} {l : Nat → Nat}
    (hkey : p.keyOk = false)
    (hblocks : ∀ b ∈ p.blocks.head?, b ≤ p.col) (hcol : p.col ≠ 0)
    (heq : p.rest = ch :: written ++ '\n' :: (List.replicate k ' ' ++ rest))
    (hch : ch = '\'' ∨ ch = '"') (hrest : AtToken rest)
    (hread : ∀ index, ∃ i col' index', quotedScalar ⟨p.rest, p.line, p.col, index⟩ =
      some (String.ofList cs, ⟨'\n' :: (List.replicate k ' ' ++ rest), l i, col', index'⟩)) :
    ReachesSome p fun i => p.afterScalar true cs rest (l i + 1) k := by
  rw [List.cons_append] at heq
  refine reachesSome_of_readToken (List.nil_append _).symm (List.forall_mem_nil _) hblocks heq
    (.inl hcol) ?_ (by simp [Place.afterScalar]) ?_
  · intro index spot hspot
    obtain ⟨i, col', index', hquoted⟩ := hread index
    refine ⟨i, _, ?_, comesTo_line rfl hrest rfl hspot.cons col' index' false⟩
    have hsave : (p.scanner index spot).saveKey = some (p.scanner index spot) := by
      simp [saveKey, Place.scanner, hkey]
    have hcomment : (Cursor.mk ('\n' :: (List.replicate k ' ' ++ rest)) (l i) col'
        index').skipComment = ⟨'\n' :: (List.replicate k ' ' ++ rest), l i, col', index'⟩ :=
      skipComment_eq (by simp [isBlank])
    refine (readToken_quoted hch).trans ?_
    show ((p.scanner index spot).readQuoted).map _ = _
    rw [readQuoted, hsave]
    simp only [Option.bind_eq_bind, Option.bind_some]
    show ((quotedScalar ⟨p.rest, p.line, p.col, index⟩).bind _).map _ = _
    rw [hquoted]
    exact congrArg (fun at_ => some { (p.afterScalar true cs rest (l i + 1) k).scanner
      (index' + 1 + k) spot with at_, keyOk := false }) hcomment
  · intro i
    simp [heq, Place.afterScalar]
    omega

/-! ## Literal blocks -/

theorem readToken_literal (houter : s.outer = []) : s.readToken '|' rest = s.readBlock := by
  have hflow : s.inFlow = false := by rw [inFlow, houter]; rfl
  cases h : s.readBlock <;> simp [readToken, hflow, h]

theorem dropKey_eq (h : s.spot.isOpen = false) : s.dropKey = some s := by
  rw [dropKey, h, if_neg (by simp), ← h]

/-- A literal block in a mapping of the first column is read with its last line. -/
theorem reachesSome_literal {p : Place} {written : List Char} (hblocks : p.blocks = [0])
    (hcol : p.col ≠ 0) (heq : p.rest = '|' :: written ++ rest) (hrest : AtToken rest)
    (hread : ∀ index, ∃ line' index', blockScalar 0 ⟨p.rest, p.line, p.col, index⟩ =
      some (String.ofList cs, ⟨rest, line', 0, index'⟩)) :
    ReachesSome p fun line' => p.afterScalar true cs rest line' 0 := by
  rw [List.cons_append] at heq
  refine reachesSome_of_readToken (List.nil_append _).symm (List.forall_mem_nil _) ?_ heq
    (.inl hcol) ?_ (by simp [Place.afterScalar]) ?_
  · rw [hblocks]
    rintro b hb
    cases hb
    exact Nat.zero_le _
  · intro index spot hspot
    obtain ⟨line', index', hblock⟩ := hread index
    refine ⟨line', _, ?_, comesTo_scanner hrest hspot.cons index'⟩
    have hdrop : (p.scanner index spot).dropKey = some (p.scanner index spot) :=
      dropKey_eq hspot.isClosed
    have hindent : (p.scanner index spot).indent = 0 := by
      simp [indent, Place.scanner, hblocks]
    refine (readToken_literal rfl).trans ?_
    show (p.scanner index spot).readBlock = _
    rw [readBlock, hdrop]
    simp only [Option.bind_eq_bind, Option.bind_some, hindent]
    show (blockScalar 0 ⟨p.rest, p.line, p.col, index⟩).bind _ = _
    rw [hblock]
    rfl
  · intro i
    show rest.length < p.rest.length
    rw [heq, List.length_cons, List.length_append]
    omega

/-! ## Items -/

theorem readToken_item : s.readToken '-' (' ' :: rest) = s.readItem := by
  cases h : s.readItem <;> simp [readToken, atGap, isBlank, h]

/-- The place behind the dash of an item. -/
def Place.afterItem (p : Place) (rest : List Char) : Place :=
  { tokens := ⟨.item, p.line⟩ :: (opening p.blocks p.col .blockSeq p.line ++ p.tokens),
    blocks := rolled p.blocks p.col, keyOk := true, rest, line := p.line, col := p.col + 2 }

theorem readItem_scanner {p : Place} {spot : KeySpot} (hkey : p.keyOk = true)
    (hblocks : ∀ b ∈ p.blocks.head?, b ≤ p.col) (hdepth : p.blocks.length < depthLimit)
    (heq : p.rest = '-' :: ' ' :: rest) (hspot : spot.isOpen = false) (index : Nat) :
    (p.scanner index spot).readItem = some
      { (p.afterItem rest).scanner (index + 1 + 1) spot with
        at_ := ⟨' ' :: rest, p.line, p.col + 1, index + 1⟩ } := by
  have hroll : (p.scanner index spot).roll p.col p.tokens.length .blockSeq p.line = _ :=
    roll_eq rfl rfl (Nat.add_zero _).symm hblocks hdepth
  have hkeyOk : (!(p.scanner index spot).inFlow && !(p.scanner index spot).keyOk) = false := by
    simp [Place.scanner, hkey]
  rw [readItem, if_neg (by simp [hkeyOk])]
  show ((p.scanner index spot).roll p.col p.tokens.length .blockSeq p.line).bind _ = _
  rw [hroll, Option.bind_some]
  show Option.bind (dropKey _) _ = _
  rw [dropKey_eq hspot]
  simp [take, push, allowKey, Place.scanner, Place.afterItem, Cursor.skip, heq, Nat.add_comm]

/-- The dash of an item closes the blocks to its right and opens a sequence, if there is none in its
column. -/
theorem reaches_item {p : Place} {shut : List Nat} (hkey : p.keyOk = true)
    (hsplit : p.blocks = shut ++ blocks) (hshut : ∀ b ∈ shut, p.col < b)
    (hblocks : ∀ b ∈ blocks.head?, b ≤ p.col) (hdepth : blocks.length < depthLimit)
    (hcol : p.col ≠ 0) (heq : p.rest = '-' :: ' ' :: rest) (hrest : AtToken rest) :
    Reaches p ((p.closed shut.length blocks).afterItem rest) := by
  refine reachesSome_of_readToken hsplit hshut hblocks heq (.inl hcol) ?_
    (by simp [Place.afterItem]) ?_
  · intro index spot hspot
    refine ⟨0, _, readToken_item.trans (@readItem_scanner _ (p.closed shut.length blocks) spot hkey
      hblocks hdepth heq hspot.isClosed index), comesTo_space rfl hrest (hspot.mono ?_) (index + 1)⟩
    simp [Place.afterItem, Place.closed]
    omega
  · intro _
    show rest.length < p.rest.length
    rw [heq, List.length_cons, List.length_cons]
    omega

/-! ## Keys -/

/-- The scanner behind a word that may be a key, in front of its colon. -/
def Place.inKey (p : Place) (word after : List Char) (required : Bool) (index : Nat) : Scanner :=
  { at_ := ⟨':' :: after, p.line, p.col + word.length, index + word.length⟩,
    tokens := ⟨.scalar false (String.ofList word), p.line⟩ :: p.tokens,
    count := p.tokens.length + 1, blocks := p.blocks,
    spot := { number := p.tokens.length, required, line := p.line, col := p.col, index },
    keyOk := false }

/-- A place behind the colon of a key. -/
def Place.afterKey (p : Place) (word rest : List Char) (keyOk : Bool) (line col : Nat) : Place :=
  { tokens := ⟨.value, p.line⟩ :: ⟨.scalar false (String.ofList word), p.line⟩ :: ⟨.key, p.line⟩ ::
      (opening p.blocks p.col .blockMap p.line ++ p.tokens),
    blocks := rolled p.blocks p.col, keyOk, rest, line, col }

theorem saveKey_scanner {p : Place} {spot : KeySpot} (hkey : p.keyOk = true)
    (hspot : spot.isOpen = false) (index : Nat) :
    ∃ required, (p.scanner index spot).saveKey = some (p.scanner index
      { number := p.tokens.length, required, line := p.line, col := p.col, index }) := by
  have hkeyOk : (p.scanner index spot).keyOk = true := hkey
  refine ⟨(p.scanner index spot).indent == p.col, ?_⟩
  rw [saveKey, if_pos hkeyOk, dropKey_eq hspot]
  rfl

theorem readToken_word {p : Place} {spot : KeySpot} (hkey : p.keyOk = true)
    (heq : p.rest = c :: cs ++ ':' :: after) (hword : IsWord (c :: cs))
    (hafter : atGap after = true) (hspot : spot.isOpen = false) (index : Nat) :
    ∃ required, (p.scanner index spot).readToken c (cs ++ ':' :: after) =
      some (p.inKey (c :: cs) after required index) := by
  have hc := hword.isLower c List.mem_cons_self
  have hmark : c = '-' ∨ c = '?' ∨ c = ':' → atGap (cs ++ ':' :: after) = false := by
    rintro (rfl | rfl | rfl) <;> cases hc
  have hcomment : (Cursor.mk (':' :: after) p.line (p.col + (c :: cs).length)
      (index + (c :: cs).length)).skipComment = _ := skipComment_eq (by simp [isBlank])
  obtain ⟨required, hsave⟩ := saveKey_scanner hkey hspot index
  refine ⟨required, ?_⟩
  rw [readToken_plain rfl (isBlank_of_isLower hc) (isBreak_of_isLower hc)
    (isIndicator_of_isLower hc) hmark, readPlain, hsave]
  simp only [Option.bind_eq_bind, Option.bind_some]
  show Option.map _ ((plain false _ ⟨p.rest, p.line, p.col, index⟩).bind _) = _
  rw [heq, plain_word hword hafter]
  exact congrArg (fun at_ => some { p.inKey (c :: cs) after required index with at_ }) hcomment

/-- The scanner behind the colon of a key. -/
def Place.behindKey (p : Place) (word after : List Char) (required : Bool) (index : Nat) :
    Scanner :=
  { (p.afterKey word after false p.line (p.col + word.length + 1)).scanner
      (index + word.length + 1) { number := p.tokens.length, required, line := p.line, col := p.col,
                                  index, isOpen := false } with
    keyOk := false }

/-- At its colon a word is marked as a key, in a mapping that is opened unless there is one in its
column. -/
theorem readValue_inKey {p : Place} (hblocks : ∀ b ∈ p.blocks.head?, b ≤ p.col)
    (hdepth : p.blocks.length < depthLimit) (hlength : cs.length ≤ keyReach) (required : Bool)
    (index : Nat) :
    (p.inKey cs after required index).readValue = some (p.behindKey cs after required index) := by
  have hreach : ((p.inKey cs after required index).spot.isOpen &&
      (p.inKey cs after required index).spot.reaches (p.inKey cs after required index).at_) =
        true := by
    simp only [Place.inKey, KeySpot.reaches, beq_self_eq_true, Bool.true_and]
    exact decide_eq_true (by omega)
  have hinsert : (p.inKey cs after required index).insert p.tokens.length .key p.line =
      { p.inKey cs after required index with
        tokens := ⟨.scalar false (String.ofList cs), p.line⟩ :: ⟨.key, p.line⟩ :: p.tokens,
        count := p.tokens.length + 2 } := by
    simp [insert, Place.inKey]
  rw [readValue]
  simp only [hreach, if_true]
  show (roll (insert _ p.tokens.length .key p.line) p.col p.tokens.length .blockMap p.line).bind _
    = _
  rw [hinsert, roll_eq (m := 2) rfl rfl rfl hblocks hdepth]
  simp [take, push, allowKey, Place.inKey, Place.behindKey, Place.scanner, Place.afterKey,
    Cursor.skip]
  omega

theorem readToken_colon (hafter : atGap after = true) :
    s.readToken ':' after = s.readValue.map fun t => { t with at_ := t.at_.skipComment } := by
  cases h : s.readValue <;> simp [readToken, hafter, h]

theorem next_inKey {p : Place} (hblocks : ∀ b ∈ p.blocks.head?, b ≤ p.col)
    (hdepth : p.blocks.length < depthLimit) (hlength : cs.length ≤ keyReach)
    (hafter : atGap after = true) (hcomment : ∀ c ∈ (after.dropWhile isBlank).head?, c ≠ '#')
    (required : Bool) (index : Nat) :
    (p.inKey cs after required index).next = some (p.behindKey cs after required index) := by
  refine next_eq_some (gapFrom_stop ?_) (unroll_eq_self rfl ?_) rfl rfl rfl
    (.inr ⟨by decide, by decide, by decide⟩) ?_ rfl
  · rintro d hd
    cases hd
    decide
  · intro b hb
    exact Int.ofNat_le.2 (Nat.le_trans (hblocks b hb) (Nat.le_add_right _ _))
  · refine (readToken_colon hafter).trans ?_
    refine (congrArg _ (readValue_inKey hblocks hdepth hlength required index)).trans ?_
    exact congrArg (fun at_ => some { p.behindKey cs after required index with at_ })
      (skipComment_eq hcomment)

/-- A key takes the scanner behind its colon. -/
theorem reaches_key {p : Place} {keyOk : Bool} (hkey : p.keyOk = true)
    (hblocks : ∀ b ∈ p.blocks.head?, b ≤ p.col) (hdepth : p.blocks.length < depthLimit)
    (heq : p.rest = cs ++ ':' :: after) (hword : IsWord cs) (hlength : cs.length ≤ keyReach)
    (hafter : atGap after = true) (hcomment : ∀ c ∈ (after.dropWhile isBlank).head?, c ≠ '#')
    (hgap : ∀ index, ∃ index', skipGap false false 0 ⟨after, p.line, p.col + cs.length + 1, index⟩ =
      (keyOk, ⟨rest, line, col, index'⟩)) (hrest : rest.length ≤ after.length) :
    Reaches p (p.afterKey cs rest keyOk line col) := by
  obtain ⟨c, cs, rfl⟩ := List.exists_cons_of_ne_nil hword.ne_nil
  have hc := hword.isLower c List.mem_cons_self
  intro s hs
  obtain ⟨index, spot, hspot, hnext⟩ := hs.exists_next (List.nil_append _).symm
    (List.forall_mem_nil _) hblocks heq
    (.inr ⟨ne_of_class hc rfl, ne_of_class hc rfl, ne_of_class hc rfl⟩)
  obtain ⟨required, hread⟩ := readToken_word hkey heq hword hafter hspot.isClosed index
  obtain ⟨index', hgap⟩ := hgap (index + (c :: cs).length + 1)
  have hfirst := run_succ (hnext _ hread rfl) rfl (by simp [Place.inKey])
  have hsecond := run_succ (next_inKey hblocks hdepth hlength hafter hcomment required index) rfl
    (by simp [Place.behindKey, Place.scanner, Place.afterKey])
  refine ⟨0, p.behindKey (c :: cs) after required index, 2, .mk hgap ⟨rfl, rfl, ?_⟩, ?_,
    fun fuel => (hfirst _).trans (hsecond _)⟩
  · simp [Place.afterKey]
    omega
  · simp [heq, Place.afterKey]
    omega

/-- A key with its value on the same line. -/
theorem reaches_key_value {p : Place} (hkey : p.keyOk = true)
    (hblocks : ∀ b ∈ p.blocks.head?, b ≤ p.col) (hdepth : p.blocks.length < depthLimit)
    (heq : p.rest = cs ++ ':' :: ' ' :: rest) (hword : IsWord cs) (hlength : cs.length ≤ keyReach)
    (hrest : AtToken rest) :
    Reaches p (p.afterKey cs rest false p.line (p.col + cs.length + 2)) := by
  refine reaches_key hkey hblocks hdepth heq hword hlength rfl ?_
    (fun index => ⟨_, gapFrom_spaces (k := 1) hrest⟩) (Nat.le_succ _)
  intro c hc
  rw [List.dropWhile_cons_of_pos rfl] at hc
  cases rest with
  | nil => cases hc
  | cons d rest =>
    obtain ⟨hblank, -, hnumber⟩ := hrest d rfl
    rw [List.dropWhile_cons_of_neg (by simp [hblank])] at hc
    cases hc
    exact hnumber

/-- A key with its value on the next line. -/
theorem reaches_key_line {p : Place} (hkey : p.keyOk = true)
    (hblocks : ∀ b ∈ p.blocks.head?, b ≤ p.col) (hdepth : p.blocks.length < depthLimit)
    (heq : p.rest = cs ++ ':' :: '\n' :: (List.replicate k ' ' ++ rest)) (hword : IsWord cs)
    (hlength : cs.length ≤ keyReach) (hrest : AtToken rest) :
    Reaches p (p.afterKey cs rest true (p.line + 1) k) := by
  refine reaches_key hkey hblocks hdepth heq hword hlength rfl (by simp [isBlank])
    (fun index => ⟨_, gapFrom_line hrest⟩) ?_
  simp
  omega

/-! ## Brackets -/

/-- The scanner behind an opening bracket. -/
def Place.inBrackets (p : Place) (after : List Char) (index : Nat) (spot : KeySpot) : Scanner :=
  { at_ := ⟨after, p.line, p.col + 1, index + 1⟩, tokens := ⟨.flowSeq, p.line⟩ :: p.tokens,
    count := p.tokens.length + 1, blocks := p.blocks,
    spot := { number := p.tokens.length, isOpen := false }, outer := [spot], keyOk := true }

theorem readToken_open {p : Place} {spot : KeySpot} (hkey : p.keyOk = false)
    (heq : p.rest = '[' :: ']' :: after) (index : Nat) :
    (p.scanner index spot).readToken '[' (']' :: after) =
      some (p.inBrackets (']' :: after) index spot) := by
  have hopen : (p.scanner index spot).openFlow .flowSeq =
      some (p.inBrackets (']' :: after) index spot) := by
    simp [openFlow, saveKey, Place.scanner, hkey, depthLimit, take, push, allowKey,
      Place.inBrackets, Cursor.skip, heq]
  have hcomment : (Cursor.mk (']' :: after) p.line (p.col + 1) (index + 1)).skipComment = _ :=
    skipComment_eq (by simp [isBlank])
  rw [readToken]
  simp only [hopen]
  exact congrArg (fun at_ => some { p.inBrackets (']' :: after) index spot with at_ }) hcomment

/-- The place behind a pair of brackets. -/
def Place.afterBrackets (p : Place) (rest : List Char) (col : Nat) : Place :=
  { p with
    tokens := ⟨.flowSeqEnd, p.line⟩ :: ⟨.flowSeq, p.line⟩ :: p.tokens, keyOk := true, rest,
    line := p.line + 1, col }

/-- The scanner behind a closing bracket. -/
def Place.behindBrackets (p : Place) (after : List Char) (index : Nat) (spot : KeySpot) : Scanner :=
  { at_ := ⟨after, p.line, p.col + 1 + 1, index + 1 + 1⟩,
    tokens := ⟨.flowSeqEnd, p.line⟩ :: ⟨.flowSeq, p.line⟩ :: p.tokens,
    count := p.tokens.length + 2, blocks := p.blocks, spot, keyOk := false }

theorem closeFlow_inBrackets {p : Place} {spot : KeySpot} (hspot : spot.IsPast p.tokens.length)
    (htokens : p.tokens ≠ []) (index : Nat) :
    (p.inBrackets (']' :: after) index spot).closeFlow .flowSeqEnd =
      some (p.behindBrackets after index spot) := by
  -- the bracket was kept by no spot, so the spot in front of it stays as it is
  have hkept : (spot.isKept && spot.number != p.tokens.length) = spot.isKept := by
    have hlength := List.length_pos_iff.2 htokens
    have hnumber := hspot.number
    have hne : spot.number ≠ p.tokens.length := by omega
    rw [bne_iff_ne.2 hne, Bool.and_true]
  rw [closeFlow, dropKey_eq rfl]
  show some (allowKey (take { p.inBrackets (']' :: after) index spot with
    spot := { spot with isKept := spot.isKept && spot.number != p.tokens.length }, outer := [] }
      _ _) _) = _
  rw [hkept]
  rfl

theorem next_inBrackets {p : Place} {spot : KeySpot} (hspot : spot.IsPast p.tokens.length)
    (htokens : p.tokens ≠ []) (index : Nat) (rest : List Char) :
    (p.inBrackets (']' :: '\n' :: rest) index spot).next =
      some (p.behindBrackets ('\n' :: rest) index spot) := by
  refine next_eq_some (gapFrom_stop ?_) rfl rfl rfl rfl (.inl (Nat.succ_ne_zero _)) ?_ rfl
  · rintro d hd
    cases hd
    decide
  · have hcomment : (Cursor.mk ('\n' :: rest) p.line (p.col + 1 + 1) (index + 1 + 1)).skipComment =
        _ := skipComment_eq (by simp [isBlank])
    show readToken (p.inBrackets (']' :: '\n' :: rest) index spot) ']' ('\n' :: rest) = _
    rw [readToken]
    simp only [closeFlow_inBrackets hspot htokens]
    exact congrArg (fun at_ => some { p.behindBrackets ('\n' :: rest) index spot with at_ })
      hcomment

/-- A pair of brackets takes the scanner to the next line. -/
theorem reaches_brackets {p : Place} (hkey : p.keyOk = false)
    (hblocks : ∀ b ∈ p.blocks.head?, b ≤ p.col) (hcol : p.col ≠ 0)
    (heq : p.rest = '[' :: ']' :: '\n' :: (List.replicate k ' ' ++ rest)) (htokens : p.tokens ≠ [])
    (hrest : AtToken rest) : Reaches p (p.afterBrackets rest k) := by
  intro s hs
  obtain ⟨index, spot, hspot, hnext⟩ := hs.exists_next (List.nil_append _).symm
    (List.forall_mem_nil _) hblocks heq (.inl hcol)
  have hfirst := run_succ (hnext _ (readToken_open hkey heq index) rfl) rfl
    (by simp [Place.inBrackets])
  have hsecond := run_succ (next_inBrackets hspot htokens index (List.replicate k ' ' ++ rest))
    hspot.isKept (by simp [Place.behindBrackets])
  refine ⟨0, _, 2, comesTo_line rfl hrest rfl hspot.cons.cons (p.col + 1 + 1) (index + 1 + 1) false,
    ?_, fun fuel => (hfirst _).trans (hsecond _)⟩
  simp [heq, Place.afterBrackets]
  omega

/-! ## The end of a text -/

/-- The scanner that comes to a place reads the text to its end and has then these tokens. -/
def Place.Reads (p : Place) (tokens : List Lexeme) : Prop :=
  ∀ s, ComesTo p s → ∀ fuel, p.rest.length < fuel → s.run fuel = tokens

theorem Reaches.reads {p q : Place} (h : Reaches p q) (hq : q.Reads tokens) : p.Reads tokens := by
  intro s hs fuel hfuel
  obtain ⟨_, t, n, ht, hn, hrun⟩ := h s hs
  have hlength : n + q.rest.length ≤ p.rest.length := hn
  obtain ⟨m, rfl⟩ : ∃ m, fuel = m + n := ⟨fuel - n, by omega⟩
  rw [hrun]
  exact hq t ht m (by omega)

/-- At the end of a text all blocks are closed. -/
theorem reads_end {p : Place} {shut : List Nat} (hrest : p.rest = [])
    (hsplit : p.blocks = shut ++ blocks) (hshut : ∀ b ∈ shut, p.col < b)
    (hblocks : ∀ b ∈ blocks.head?, b ≤ p.col)
    (htokens : (⟨.finish, p.line⟩ :: (List.replicate blocks.length ⟨.blockEnd, p.line⟩ ++
      (List.replicate shut.length ⟨.blockEnd, p.line⟩ ++ p.tokens))).reverse = tokens) :
    p.Reads tokens := by
  intro s hs fuel hfuel
  obtain ⟨fuel, rfl⟩ := Nat.exists_eq_succ_of_ne_zero (Nat.ne_zero_of_lt hfuel)
  cases hs with
  | @mk at_ keyOk index spot hgap hspot =>
    have hend : ((p.closed shut.length blocks).scanner index spot).endBlocks =
        some { ((p.closed shut.length blocks).closed blocks.length []).scanner index spot with
          keyOk := false } := by
      have hclose := @unroll_scanner [] (p.closed shut.length blocks) blocks (-1)
        (List.append_nil _).symm (fun b _ => by omega) (by simp) index spot
      have hdrop : (((p.closed shut.length blocks).closed blocks.length []).scanner index
          spot).dropKey = _ := dropKey_eq hspot.isClosed
      rw [endBlocks, hclose, hdrop]
      rfl
    have hnext : next { p.scanner index spot with at_, keyOk } = some _ :=
      next_eq_finish hgap (unroll_col hsplit hshut hblocks index spot) rfl rfl hrest hend rfl
    rw [run, hnext, ← htokens]
    rfl

/-! ## Whole texts -/

/-- The start of a text. -/
def Place.start (text : List Char) : Place := ⟨[], [], true, text, 1, 0⟩

/-- A text that takes the scanner to one of some places has the tokens that are read from there, if
it starts with a word. -/
theorem exists_scan_eq {text word : List Char} {q : Nat → Place} {l : Nat → List Lexeme}
    (hword : IsWord word) (heq : text = word ++ rest) (hallowed : ∀ c ∈ text, isAllowed c = true)
    (hreaches : ReachesSome (.start text) q) (hreads : ∀ i, (q i).Reads (l i)) :
    ∃ i, Token.scan (Text.encode (String.ofList text)) = l i := by
  have hmark : ∀ c ∈ text.head?, isMark c = false := by
    obtain ⟨d, ds, rfl⟩ := List.exists_cons_of_ne_nil hword.ne_nil
    rw [heq]
    rintro c hc
    cases hc
    have hlower := toNat_of_isLower (hword.isLower d List.mem_cons_self)
    rw [isMark, beq_eq_false_iff_ne]
    omega
  have hspot : KeySpot.IsPast { number := 0, isOpen := false } 0 := ⟨rfl, rfl, Nat.le_refl 0⟩
  have hstart : ComesTo (.start text) ((Place.start text).scanner 0 _) :=
    comesTo_scanner (heq ▸ hword.atToken rest) hspot 0
  obtain ⟨i, t, n, ht, hn, hrun⟩ := hreaches _ hstart
  have hlength : (Place.start text).rest.length = text.length := rfl
  obtain ⟨fuel, hfuel⟩ : ∃ fuel, text.length + 2 = fuel + n := ⟨text.length + 2 - n, by omega⟩
  refine ⟨i, ?_⟩
  rw [Token.scan, ofOctets_encode hallowed hmark]
  show run (text.length + 2) ((Place.start text).scanner 0 _) = _
  rw [hfuel, hrun]
  exact hreads i t ht fuel (by omega)

end Scanner

end StackLang.Yaml

import StackLang.Token
import StackLang.Proofs.Text.Decoding

/-!
# What the tokens of a text are

A token of a text is a maximal run without white space of one of its lines, where lines end at line
feeds, go up to the first `//` and are read as UTF-8: `Token.IsToken` says so without scanning
anything.  `mem_scan_iff` and `pairwise_scan` say that scanning gives all tokens, nothing else, and
each one once, in the order of the text.

A line is taken apart from its front, where a space, a run or nothing stands (`line_induction`).
-/

set_option autoImplicit false

namespace StackLang.Token

open Text (isSpace)

variable {file : String} {octets line front front' : List UInt8} {cs word after : List Char}
  {s : Char} {col k : Nat}

/-! ## Lines without comments -/

/-- `front` is what stands on a line in front of its first `//`. -/
def Uncommented (line front : List UInt8) : Prop :=
  front <+: line ∧ (∀ k < front.length, ¬ [0x2F, 0x2F] <+: line.drop k) ∧
    (front = line ∨ [0x2F, 0x2F] <+: line.drop front.length)

theorem Uncommented.cons {a : UInt8} (ha : ¬ [0x2F, 0x2F] <+: a :: line)
    (h : Uncommented line front) : Uncommented (a :: line) (a :: front) := by
  obtain ⟨hpre, hnone, hend⟩ := h
  refine ⟨List.cons_prefix_cons.2 ⟨rfl, hpre⟩, fun k hk => ?_, ?_⟩
  · cases k with
    | zero => exact ha
    | succ k => exact hnone k (Nat.lt_of_succ_lt_succ hk)
  · exact hend.imp (congrArg (a :: ·)) id

theorem uncommented_cutComment (line : List UInt8) : Uncommented line (cutComment line) := by
  have hnil : Uncommented [] [] := ⟨List.nil_prefix, by simp, .inl rfl⟩
  induction line using cutComment.induct with
  | case1 => exact hnil
  | case2 b => exact hnil.cons (by simp)
  | case3 a b rest h =>
    rw [cutComment, if_pos h, h.1, h.2]
    exact ⟨List.nil_prefix, by simp, .inr (List.prefix_append [0x2F, 0x2F] rest)⟩
  | case4 a b rest h ih =>
    rw [cutComment, if_neg h]
    refine ih.cons fun hmark => h ?_
    simpa [eq_comm] using hmark

theorem Uncommented.length_le (h : Uncommented line front) (h' : Uncommented line front') :
    front.length ≤ front'.length := by
  refine Nat.le_of_not_lt fun hlt => ?_
  rcases h'.2.2 with rfl | hmark
  · exact absurd h.1.length_le (Nat.not_le_of_lt hlt)
  · exact h.2.1 _ hlt hmark

theorem uncommented_iff : Uncommented line front ↔ cutComment line = front := by
  constructor
  · intro h
    have hcut := uncommented_cutComment line
    exact (List.prefix_of_prefix_length_le hcut.1 h.1 (hcut.length_le h)).eq_of_length
      (Nat.le_antisymm (hcut.length_le h) (h.length_le hcut))
  · rintro rfl
    exact uncommented_cutComment line

theorem Uncommented.no_comment (h : Uncommented line front) : ¬ [0x2F, 0x2F] <:+: front := by
  rintro ⟨x, y, hxy⟩
  obtain ⟨rest, hrest⟩ := h.1
  refine h.2.1 x.length ?_ ?_
  · rw [← hxy]
    simp
  · rw [← hrest, ← hxy, List.append_assoc, List.append_assoc, List.drop_left]
    exact List.prefix_append _ _

/-! ## Runs -/

/-- A maximal run without white space, behind the first `k` characters. -/
def IsRun (cs : List Char) (k : Nat) (word : List Char) : Prop :=
  ∃ before after, cs = before ++ (word ++ after) ∧ before.length = k ∧ word ≠ [] ∧
    (∀ c ∈ word, isSpace c = false) ∧ (∀ c ∈ before.getLast?, isSpace c = true) ∧
    ∀ c ∈ after.head?, isSpace c = true

/-- A line is empty, or there is a space at its front, or a run that ends at a space or with the
line. -/
theorem line_induction {motive : List Char → Prop} (nil : motive [])
    (space : ∀ s cs, isSpace s = true → motive cs → motive (s :: cs))
    (run : ∀ word after, word ≠ [] → (∀ c ∈ word, isSpace c = false) →
      (∀ c ∈ after.head?, isSpace c = true) → motive after → motive (word ++ after))
    (cs : List Char) : motive cs := by
  induction hn : cs.length using Nat.strongRecOn generalizing cs with
  | ind n ih =>
    subst hn
    cases cs with
    | nil => exact nil
    | cons c cs =>
      by_cases hc : isSpace c = true
      · exact space c cs hc (ih _ (Nat.lt_succ_self _) cs rfl)
      · have hle : (cs.dropWhile fun x => !isSpace x).length ≤ cs.length :=
          (List.dropWhile_suffix _).length_le
        have hword := run (c :: cs.takeWhile fun x => !isSpace x) (cs.dropWhile fun x => !isSpace x)
          (List.cons_ne_nil _ _) ?_ ?_ (ih _ (Nat.lt_succ_of_le hle) _ rfl)
        · rwa [List.cons_append, List.takeWhile_append_dropWhile] at hword
        · refine List.forall_mem_cons.2 ⟨by simpa using hc, fun x hx => ?_⟩
          simpa using List.all_eq_true.1 List.all_takeWhile x hx
        · intro x hx
          have hhead := List.head?_dropWhile_not (fun x => !isSpace x) cs
          rw [Option.mem_def.1 hx] at hhead
          simpa using hhead

theorem runs_eq_nil (h : cs.dropWhile isSpace = []) (col : Nat) : runs col cs = [] := by
  rw [runs]
  split
  · rfl
  · rename_i heq
    cases h.symm.trans heq

theorem runs_eq_cons {c : Char} {rest : List Char} (h : cs.dropWhile isSpace = c :: rest)
    (col : Nat) :
    runs col cs = (col + (cs.takeWhile isSpace).length, c :: rest.takeWhile (!isSpace ·)) ::
      runs (col + (cs.takeWhile isSpace).length + (rest.takeWhile (!isSpace ·)).length + 1)
        (rest.dropWhile (!isSpace ·)) := by
  rw [runs]
  split
  · rename_i heq
    cases h.symm.trans heq
  · rename_i heq
    cases h.symm.trans heq
    rfl

theorem runs_nil (col : Nat) : runs col [] = [] := runs_eq_nil rfl col

theorem runs_space (hs : isSpace s = true) (col : Nat) (cs : List Char) :
    runs col (s :: cs) = runs (col + 1) cs := by
  have hdrop : (s :: cs).dropWhile isSpace = cs.dropWhile isSpace := List.dropWhile_cons_of_pos hs
  cases h : cs.dropWhile isSpace with
  | nil => rw [runs_eq_nil h, runs_eq_nil (hdrop.trans h)]
  | cons c rest =>
    have hcol (n : Nat) : col + (n + 1) = col + 1 + n := by omega
    rw [runs_eq_cons h, runs_eq_cons (hdrop.trans h), List.takeWhile_cons_of_pos hs,
      List.length_cons, hcol]

theorem runs_word (hne : word ≠ []) (hword : ∀ c ∈ word, isSpace c = false)
    (hafter : ∀ c ∈ after.head?, isSpace c = true) (col : Nat) :
    runs col (word ++ after) = (col, word) :: runs (col + word.length) after := by
  obtain ⟨c, word, rfl⟩ := List.exists_cons_of_ne_nil hne
  obtain ⟨hc, hword⟩ := List.forall_mem_cons.1 hword
  have hnot : ∀ x ∈ word, (!isSpace x) = true := by simpa using hword
  have hstop : after.takeWhile (!isSpace ·) = [] ∧ after.dropWhile (!isSpace ·) = after := by
    cases after with
    | nil => exact ⟨rfl, rfl⟩
    | cons x after =>
      have hx : ¬ (!isSpace x) = true := by simpa using hafter x rfl
      exact ⟨List.takeWhile_cons_of_neg hx, List.dropWhile_cons_of_neg hx⟩
  rw [List.cons_append, runs_eq_cons (List.dropWhile_cons_of_neg (by simp [hc])),
    List.takeWhile_cons_of_neg (by simp [hc]), List.takeWhile_append_of_pos hnot,
    List.dropWhile_append_of_pos hnot, hstop.1, hstop.2, List.append_nil]
  rfl

theorem not_isRun_nil : ¬ IsRun [] k word := by
  rintro ⟨before, after, h, -, hne, -⟩
  simp [hne] at h

theorem isRun_space (hs : isSpace s = true) :
    IsRun (s :: cs) k word ↔ ∃ j, k = j + 1 ∧ IsRun cs j word := by
  constructor
  · rintro ⟨before, after, h, rfl, hne, hword, hbefore, hafter⟩
    cases before with
    | nil =>
      -- the run would start with the space
      obtain ⟨c, word, rfl⟩ := List.exists_cons_of_ne_nil hne
      cases h
      rw [hword s List.mem_cons_self] at hs
      cases hs
    | cons x before =>
      cases h
      refine ⟨before.length, rfl, before, after, rfl, rfl, hne, hword, fun c hc => ?_, hafter⟩
      refine hbefore c ?_
      rw [Option.mem_def] at hc ⊢
      rw [List.getLast?_cons, hc]
      rfl
  · rintro ⟨_, rfl, before, after, rfl, rfl, hne, hword, hbefore, hafter⟩
    refine ⟨s :: before, after, rfl, rfl, hne, hword, fun c hc => ?_, hafter⟩
    rw [List.getLast?_cons, Option.mem_some_iff] at hc
    subst hc
    cases h : before.getLast? with
    | none => exact hs
    | some x => exact hbefore x h

/-- The first run of a line that starts with one, and the runs behind it. -/
theorem isRun_word {first : List Char} (hne : first ≠ [])
    (hfirst : ∀ c ∈ first, isSpace c = false) (hstop : ∀ c ∈ cs.head?, isSpace c = true) :
    IsRun (first ++ cs) k word ↔
      (k = 0 ∧ word = first) ∨ ∃ j, k = first.length + j ∧ IsRun cs j word := by
  constructor
  · rintro ⟨before, after, h, rfl, hne', hword, hbefore, hafter⟩
    cases hlast : before.getLast? with
    | none =>
      -- a line starts with one run only
      rw [List.getLast?_eq_none_iff] at hlast
      subst hlast
      have hruns := runs_word hne hfirst hstop 0
      rw [h, List.nil_append, runs_word hne' hword hafter 0] at hruns
      exact .inl ⟨rfl, congrArg Prod.snd (List.cons.inj hruns).1⟩
    | some x =>
      rcases List.append_eq_append_iff.1 h with ⟨gap, rfl, hcs⟩ | ⟨rest, hrest, -⟩
      · refine .inr ⟨gap.length, List.length_append, gap, after, hcs, rfl, hne', hword, ?_, hafter⟩
        intro c hc
        refine hbefore c ?_
        rw [Option.mem_def] at hc ⊢
        rw [List.getLast?_append, hc]
        rfl
      · have hx : x ∈ first := hrest ▸ List.mem_append_left rest (List.mem_of_getLast? hlast)
        cases (hfirst x hx).symm.trans (hbefore x hlast)
  · rintro (⟨rfl, rfl⟩ | ⟨_, rfl, before, after, rfl, rfl, hne', hword, hbefore, hafter⟩)
    · exact ⟨[], cs, rfl, rfl, hne, hfirst, by simp, hstop⟩
    · refine ⟨first ++ before, after, List.append_assoc .. ▸ rfl, List.length_append, hne', hword,
        fun c hc => ?_, hafter⟩
      rw [List.getLast?_append] at hc
      cases hlast : before.getLast? with
      | none =>
        -- between the two runs there is a space
        obtain ⟨d, word, rfl⟩ := List.exists_cons_of_ne_nil hne'
        rw [List.getLast?_eq_none_iff.1 hlast] at hstop
        cases (hword d List.mem_cons_self).symm.trans (hstop d rfl)
      | some x =>
        rw [hlast, Option.some_or] at hc
        exact hbefore c (hlast ▸ hc)

theorem mem_runs_iff {n : Nat} :
    (n, word) ∈ runs col cs ↔ ∃ k, n = col + k ∧ IsRun cs k word := by
  induction cs using line_induction generalizing col with
  | nil => simp [runs_nil, not_isRun_nil]
  | space s cs hs ih =>
    rw [runs_space hs, ih]
    constructor
    · rintro ⟨k, rfl, hk⟩
      exact ⟨k + 1, by omega, (isRun_space hs).2 ⟨k, rfl, hk⟩⟩
    · rintro ⟨k, rfl, hk⟩
      obtain ⟨j, rfl, hj⟩ := (isRun_space hs).1 hk
      exact ⟨j, by omega, hj⟩
  | run first cs hne hfirst hstop ih =>
    rw [runs_word hne hfirst hstop, List.mem_cons, ih, Prod.mk.injEq]
    constructor
    · rintro (⟨rfl, rfl⟩ | ⟨k, rfl, hk⟩)
      · exact ⟨0, rfl, (isRun_word hne hfirst hstop).2 (.inl ⟨rfl, rfl⟩)⟩
      · exact ⟨first.length + k, by omega, (isRun_word hne hfirst hstop).2 (.inr ⟨k, rfl, hk⟩)⟩
    · rintro ⟨k, rfl, hk⟩
      rcases (isRun_word hne hfirst hstop).1 hk with ⟨rfl, rfl⟩ | ⟨j, rfl, hj⟩
      · exact .inl ⟨rfl, rfl⟩
      · exact .inr ⟨j, by omega, hj⟩

theorem pairwise_runs (col : Nat) (cs : List Char) :
    (runs col cs).Pairwise fun r r' => r.1 < r'.1 := by
  induction cs using line_induction generalizing col with
  | nil => rw [runs_nil]; exact .nil
  | space s cs hs ih => rw [runs_space hs]; exact ih _
  | run first cs hne hfirst hstop ih =>
    rw [runs_word hne hfirst hstop]
    refine .cons (fun r hr => ?_) (ih _)
    obtain ⟨k, hk, -⟩ := mem_runs_iff.1 hr
    have hpos := List.length_pos_iff.2 hne
    omega

/-! ## Lines -/

theorem ofLine_nil (file : String) (n : Nat) : ofLine file n [] = [] := by
  rw [ofLine, cutComment, Text.decode, runs_nil]
  rfl

theorem modifyHead_nil_append (ls : List (List UInt8)) :
    ls.modifyHead (([] : List UInt8).reverse ++ ·) = ls := by
  cases ls <;> rfl

/-- A final line that is empty has no tokens, so that it does not matter whether it is one. -/
theorem ofLines_go (file : String) (n : Nat) (line octets : List UInt8) :
    ofLines file n (lines.go line octets) =
      ofLines file n ((octets.splitOn 0x0A).modifyHead (line.reverse ++ ·)) := by
  induction octets generalizing n line with
  | nil =>
    rw [lines.go]
    split
    · rename_i h
      rw [List.isEmpty_iff.1 h]
      simp [ofLines, ofLine_nil]
    · simp
  | cons b octets ih =>
    rw [lines.go, List.splitOn_cons_eq_if_modifyHead]
    by_cases hb : b = 0x0A
    · rw [if_pos hb, if_pos (by simp [hb]), ofLines, ih, modifyHead_nil_append,
        List.modifyHead_cons, List.append_nil, ofLines]
    · rw [if_neg hb, if_neg (by simp [hb]), ih, List.modifyHead_modifyHead]
      simp [Function.comp_def]

theorem scan_eq (file : String) (octets : List UInt8) :
    scan file octets = ofLines file 1 (octets.splitOn 0x0A) := by
  rw [scan, lines, ofLines_go, modifyHead_nil_append]

theorem mem_ofLine_iff {n : Nat} {t : Token} :
    t ∈ ofLine file n line ↔ ∃ front cs k word, Uncommented line front ∧ Text.Reads front cs ∧
      IsRun cs k word ∧ t = ⟨file, n, (k : Int) + 1, String.ofList word⟩ := by
  simp only [uncommented_iff, Text.reads_iff]
  rw [ofLine, List.mem_map]
  constructor
  · rintro ⟨⟨col, word⟩, hmem, rfl⟩
    obtain ⟨k, rfl, hk⟩ := mem_runs_iff.1 hmem
    refine ⟨_, _, k, word, rfl, rfl, hk, ?_⟩
    simp [Int.add_comm]
  · rintro ⟨_, _, k, word, rfl, rfl, hk, rfl⟩
    refine ⟨(1 + k, word), mem_runs_iff.2 ⟨k, rfl, hk⟩, ?_⟩
    simp [Int.add_comm]

theorem mem_ofLines_iff {n : Nat} {ls : List (List UInt8)} {t : Token} :
    t ∈ ofLines file n ls ↔
      ∃ (k : Nat) (line : List UInt8), ls[k]? = some line ∧ t ∈ ofLine file (n + k) line := by
  induction ls generalizing n with
  | nil => simp [ofLines]
  | cons l ls ih =>
    rw [ofLines, List.mem_append, ih]
    constructor
    · rintro (h | ⟨k, line, hline, h⟩)
      · exact ⟨0, l, rfl, h⟩
      · exact ⟨k + 1, line, hline, by rwa [Nat.add_right_comm] at h⟩
    · rintro ⟨_ | k, line, hline, h⟩
      · cases hline
        exact .inl h
      · exact .inr ⟨k, line, hline, by rwa [Nat.add_right_comm]⟩

/-- One token stands in front of another. -/
def Before (t u : Token) : Prop := t.line < u.line ∨ t.line = u.line ∧ t.col < u.col

theorem line_of_mem_ofLine {n : Nat} {t : Token} (h : t ∈ ofLine file n line) : t.line = n := by
  obtain ⟨_, _, _, _, _, _, _, rfl⟩ := mem_ofLine_iff.1 h
  rfl

theorem pairwise_ofLine (file : String) (n : Nat) (line : List UInt8) :
    (ofLine file n line).Pairwise Before := by
  rw [ofLine, List.pairwise_map]
  refine (pairwise_runs 1 _).imp fun h => .inr ⟨rfl, ?_⟩
  exact Int.ofNat_lt.2 h

theorem pairwise_ofLines (file : String) (n : Nat) (ls : List (List UInt8)) :
    (ofLines file n ls).Pairwise Before := by
  induction ls generalizing n with
  | nil => exact .nil
  | cons l ls ih =>
    refine List.pairwise_append.2 ⟨pairwise_ofLine file n l, ih (n + 1), fun t ht u hu => .inl ?_⟩
    obtain ⟨k, line, -, hu⟩ := mem_ofLines_iff.1 hu
    rw [line_of_mem_ofLine ht, line_of_mem_ofLine hu]
    omega

/-! ## Texts -/

/-- A token of a text: a maximal run without white space of a line without its comment. -/
def IsToken (file : String) (octets : List UInt8) (t : Token) : Prop :=
  ∃ (n : Nat) (line front : List UInt8) (cs : List Char) (k : Nat) (word : List Char),
    (octets.splitOn 0x0A)[n]? = some line ∧ Uncommented line front ∧ Text.Reads front cs ∧
      IsRun cs k word ∧ t = ⟨file, (n : Int) + 1, (k : Int) + 1, String.ofList word⟩

/-- **The tokens that are scanned are those of the text.** -/
theorem mem_scan_iff {t : Token} : t ∈ scan file octets ↔ IsToken file octets t := by
  rw [scan_eq, mem_ofLines_iff]
  constructor
  · rintro ⟨n, line, hline, ht⟩
    obtain ⟨front, cs, k, word, hfront, hcs, hword, rfl⟩ := mem_ofLine_iff.1 ht
    refine ⟨n, line, front, cs, k, word, hline, hfront, hcs, hword, ?_⟩
    simp [Int.add_comm]
  · rintro ⟨n, line, front, cs, k, word, hline, hfront, hcs, hword, rfl⟩
    refine ⟨n, line, hline, mem_ofLine_iff.2 ⟨front, cs, k, word, hfront, hcs, hword, ?_⟩⟩
    simp [Int.add_comm]

/-- The tokens are scanned in the order of the text, and each one once. -/
theorem pairwise_scan (file : String) (octets : List UInt8) :
    (scan file octets).Pairwise Before :=
  scan_eq file octets ▸ pairwise_ofLines file 1 _

/-- A text that can be a token: not empty, without white space and without `//`. -/
def IsWord (cs : List Char) : Prop :=
  cs ≠ [] ∧ (∀ c ∈ cs, isSpace c = false) ∧ ¬ ['/', '/'] <:+: cs

theorem isWord_of_isToken {t : Token} (h : IsToken file octets t) : IsWord t.text.toList := by
  obtain ⟨n, line, front, cs, k, word, -, hfront, hcs, hrun, rfl⟩ := h
  obtain ⟨before, after, rfl, -, hne, hword, -⟩ := hrun
  rw [String.toList_ofList]
  refine ⟨hne, hword, fun hslashes => hfront.no_comment (hcs.slashes_iff.2 ?_)⟩
  exact hslashes.trans ⟨before, after, by rw [List.append_assoc]⟩

/-! ## Texts one behind the other -/

/-- The token so many lines further down. -/
def moved (n : Nat) (t : Token) : Token := { t with line := t.line + n }

theorem ofLines_append (file : String) (n : Nat) (ls ls' : List (List UInt8)) :
    ofLines file n (ls ++ ls') = ofLines file n ls ++ ofLines file (n + ls.length) ls' := by
  induction ls generalizing n with
  | nil => rfl
  | cons l ls ih =>
    rw [List.cons_append, ofLines, ofLines, ih, List.append_assoc, List.length_cons,
      Nat.add_right_comm n, Nat.add_assoc n]

theorem ofLines_moved (file : String) (n k : Nat) (ls : List (List UInt8)) :
    ofLines file (n + k) ls = (ofLines file n ls).map (moved k) := by
  induction ls generalizing n with
  | nil => rfl
  | cons l ls ih =>
    rw [ofLines, ofLines, List.map_append, Nat.add_right_comm, ih, ofLine, ofLine, List.map_map]
    rfl

theorem length_splitOn (octets : List UInt8) :
    (octets.splitOn 0x0A).length = 1 + octets.count 0x0A := by
  induction octets with
  | nil => rfl
  | cons b octets ih =>
    rw [List.splitOn_cons_eq_if_modifyHead, List.count_cons]
    split
    · rw [List.length_cons, ih]
      omega
    · rw [List.length_modifyHead, ih]
      rfl

/-- **The tokens of a text behind a line feed are those of the text, further down.** -/
theorem scan_append (file : String) (a b : List UInt8) :
    scan file (a ++ 0x0A :: b) =
      scan file a ++ (scan file b).map (moved (1 + a.count 0x0A)) := by
  rw [scan_eq, scan_eq, scan_eq, List.splitOn_append_cons_self, ofLines_append, length_splitOn,
    ofLines_moved]

/-! ## Words as a text -/

theorem map_runs_intercalate {words : List (List Char)} (h : ∀ w ∈ words, IsWord w) (col : Nat) :
    (runs col ([' '].intercalate words)).map Prod.snd = words := by
  induction words generalizing col with
  | nil => rw [List.intercalate_nil, runs_nil]; rfl
  | cons w words ih =>
    obtain ⟨⟨hne, hw, -⟩, hwords⟩ := List.forall_mem_cons.1 h
    cases words with
    | nil =>
      rw [List.intercalate_singleton, ← List.append_nil w, runs_word hne hw (by simp), runs_nil,
        List.append_nil]
      rfl
    | cons w' words =>
      rw [List.intercalate_cons_cons, List.append_assoc, runs_word hne hw (by simp; decide),
        List.singleton_append, runs_space (by decide), List.map_cons, ih hwords]

theorem eq_space_of_mem_intercalate {words : List (List Char)} (h : ∀ w ∈ words, IsWord w)
    (hs : isSpace s = true) (hmem : s ∈ [' '].intercalate words) : s = ' ' := by
  induction words with
  | nil => cases hmem
  | cons w words ih =>
    obtain ⟨⟨-, hw, -⟩, hwords⟩ := List.forall_mem_cons.1 h
    have hnot : s ∉ w := fun hsw => by cases (hw s hsw).symm.trans hs
    cases words with
    | nil =>
      rw [List.intercalate_singleton] at hmem
      exact absurd hmem hnot
    | cons w' words =>
      rw [List.intercalate_cons_cons, List.append_assoc, List.mem_append, or_iff_right hnot,
        List.mem_append, List.mem_singleton] at hmem
      exact hmem.elim id (ih hwords)

/-- Two slashes stand on one side of a space. -/
theorem slashes_append_space {l : List Char} (h : ['/', '/'] <:+: word ++ ' ' :: l) :
    ['/', '/'] <:+: word ∨ ['/', '/'] <:+: l := by
  induction word with
  | nil =>
    rw [List.nil_append, List.infix_cons_iff, List.cons_prefix_cons] at h
    exact h.elim (fun hx => absurd hx.1 (by decide)) .inr
  | cons x word ih =>
    rw [List.cons_append, List.infix_cons_iff, List.cons_prefix_cons] at h
    rcases h with ⟨rfl, hpre⟩ | h
    · cases word with
      | nil => exact absurd (List.cons_prefix_cons.1 hpre).1 (by decide)
      | cons y word =>
        obtain ⟨rfl, -⟩ := List.cons_prefix_cons.1 hpre
        exact .inl (List.prefix_append ['/', '/'] word).isInfix
    · exact (ih h).imp_left fun hword => List.infix_cons_iff.2 (.inr hword)

theorem no_slashes_intercalate {words : List (List Char)} (h : ∀ w ∈ words, IsWord w) :
    ¬ ['/', '/'] <:+: [' '].intercalate words := by
  induction words with
  | nil => simp
  | cons w words ih =>
    obtain ⟨⟨-, -, hw⟩, hwords⟩ := List.forall_mem_cons.1 h
    cases words with
    | nil => rwa [List.intercalate_singleton]
    | cons w' words =>
      rw [List.intercalate_cons_cons, List.append_assoc, List.singleton_append]
      exact fun hslashes => (slashes_append_space hslashes).elim hw (ih hwords)

theorem uncommented_self (h : ¬ [0x2F, 0x2F] <:+: line) : Uncommented line line :=
  ⟨List.prefix_refl line,
    fun k _ hmark => h (hmark.isInfix.trans (List.drop_suffix k line).isInfix), .inl rfl⟩

/-- A text of a single line without a comment has its runs as tokens. -/
theorem scan_line {text : String} (hfeed : '\n' ∉ text.toList)
    (hslashes : ¬ ['/', '/'] <:+: text.toList) (file : String) :
    scan file (Text.encode text) =
      (runs 1 text.toList).map fun r => ⟨file, 1, (r.1 : Int), String.ofList r.2⟩ := by
  have hdecode := Text.decode_encode text
  have hoctets : ¬ [0x2F, 0x2F] <:+: Text.encode text := fun hmark =>
    hslashes ((Text.reads_iff.2 hdecode).slashes_iff.1 hmark)
  rw [scan_eq, List.splitOn_eq_singleton (Text.lineFeed_not_mem_encode hfeed), ofLines, ofLines,
    List.append_nil, ofLine, uncommented_iff.1 (uncommented_self hoctets), hdecode]
  rfl

/-- **Words with a space between them are the tokens of that text.** -/
theorem map_text_scan {words : List String} (h : ∀ w ∈ words, IsWord w.toList) (file : String) :
    (scan file (Text.encode (" ".intercalate words))).map Token.text = words := by
  have hwords : ∀ w ∈ words.map String.toList, IsWord w := List.forall_mem_map.2 h
  have hlist : (" ".intercalate words).toList = [' '].intercalate (words.map String.toList) :=
    String.toList_intercalate
  have hfeed : '\n' ∉ (" ".intercalate words).toList := fun hmem => by
    rw [hlist] at hmem
    exact absurd (eq_space_of_mem_intercalate hwords (by decide) hmem) (by decide)
  have hslashes : ¬ ['/', '/'] <:+: (" ".intercalate words).toList :=
    hlist ▸ no_slashes_intercalate hwords
  rw [scan_line hfeed hslashes, hlist, List.map_map]
  calc (runs 1 ([' '].intercalate (words.map String.toList))).map (String.ofList ∘ Prod.snd)
      = (words.map String.toList).map String.ofList := by
        rw [← List.map_map, map_runs_intercalate hwords]
    _ = words := by
        rw [List.map_map]
        exact List.map_id'' (fun _ => String.ofList_toList) words

theorem IsWord.lineFeed_not_mem (h : IsWord word) : '\n' ∉ word := fun hmem => by
  have hspace := h.2.1 _ hmem
  cases hspace

/-- A word alone is the only token of its text. -/
theorem scan_word {w : String} (h : IsWord w.toList) (file : String) :
    scan file (Text.encode w) = [⟨file, 1, 1, w⟩] := by
  have hrun : runs 1 (w.toList ++ []) = (1, w.toList) :: runs (1 + w.toList.length) [] :=
    runs_word h.1 h.2.1 (by simp) 1
  rw [List.append_nil, runs_nil] at hrun
  rw [scan_line h.lineFeed_not_mem h.2.2, hrun, List.map_singleton, String.ofList_toList]
  rfl

/-- **Words on lines of their own are the tokens of that text**, each at the start of its line. -/
theorem scan_lines {words : List String} (h : ∀ w ∈ words, IsWord w.toList) (file : String) :
    scan file (Text.encode (String.join (words.map (· ++ "\n")))) =
      words.zipIdx.map fun x => ⟨file, (x.2 : Int) + 1, 1, x.1⟩ := by
  induction words with
  | nil =>
    have hempty : Text.encode (String.join ([].map (· ++ "\n"))) = [] := by decide +kernel
    rw [hempty]
    rfl
  | cons w words ih =>
    obtain ⟨hw, hwords⟩ := List.forall_mem_cons.1 h
    have hfeed : Text.encode "\n" = [0x0A] := by decide +kernel
    have hsplit : Text.encode (String.join ((w :: words).map (· ++ "\n"))) =
        Text.encode w ++ 0x0A :: Text.encode (String.join (words.map (· ++ "\n"))) := by
      rw [List.map_cons, String.join_cons, Text.encode_append, Text.encode_append, hfeed,
        List.append_assoc, List.singleton_append]
    have hcount : (Text.encode w).count 0x0A = 0 :=
      List.count_eq_zero.2 (Text.lineFeed_not_mem_encode hw.lineFeed_not_mem)
    rw [hsplit, scan_append, scan_word hw, ih hwords, hcount, List.zipIdx_cons', List.map_cons,
      List.map_map, List.map_map, List.singleton_append]
    rfl

/-! ## Scanning as a whole -/

/-- **Scanning is exact.**  It gives the tokens of a text, each one once and in the order of their
lines and columns; these are not empty and have neither white space nor `//` in them.  What
stands behind a line feed is scanned as if it stood alone, and the words of a text, with a space
between them, are a text with the same words. -/
theorem scan_exact (file : String) (octets : List UInt8) :
    (∀ t, t ∈ scan file octets ↔ IsToken file octets t) ∧
    (scan file octets).Pairwise Before ∧
    (∀ t ∈ scan file octets, IsWord t.text.toList) ∧
    (∀ a b, scan file (a ++ 0x0A :: b) =
      scan file a ++ (scan file b).map (moved (1 + a.count 0x0A))) ∧
    (scan file (Text.encode (" ".intercalate ((scan file octets).map Token.text)))).map Token.text =
      (scan file octets).map Token.text := by
  have hwords : ∀ t ∈ scan file octets, IsWord t.text.toList :=
    fun t ht => isWord_of_isToken (mem_scan_iff.1 ht)
  exact ⟨fun t => mem_scan_iff, pairwise_scan file octets, hwords, scan_append file,
    map_text_scan (List.forall_mem_map.2 hwords) file⟩

/-- The octets of `1`, of a space, and one that is no character, in front of a comment. -/
theorem scan_exact_invalid :
    IsToken "f" [0x31, 0x20, 0xFF, 0x2F, 0x2F, 0x32] ⟨"f", 1, 3, "\uFFFD"⟩ ∧
      ⟨"f", 1, 3, "\uFFFD"⟩ ∈ scan "f" [0x31, 0x20, 0xFF, 0x2F, 0x2F, 0x32] ∧
      IsWord ['\uFFFD'] := by
  have htoken : IsToken "f" [0x31, 0x20, 0xFF, 0x2F, 0x2F, 0x32] ⟨"f", 1, 3, "\uFFFD"⟩ := by
    refine ⟨0, _, [0x31, 0x20, 0xFF], ['1', ' ', '\uFFFD'], 2, ['\uFFFD'], rfl,
      uncommented_iff.2 (by decide), Text.reads_iff.2 (by simp [Text.decode, Text.decodeHead]; rfl),
      ⟨['1', ' '], [], rfl, rfl, by decide, List.forall_mem_singleton.2 (by decide), ?_, nofun⟩,
      rfl⟩
    rintro _ ⟨⟩
    decide
  have hscan := scan_exact "f" [0x31, 0x20, 0xFF, 0x2F, 0x2F, 0x32]
  have hmem := (hscan.1 _).2 htoken
  exact ⟨htoken, hmem, hscan.2.2.1 _ hmem⟩

end StackLang.Token

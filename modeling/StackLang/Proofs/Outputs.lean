import Mathlib.Data.List.DropRight
import StackLang.Report

/-!
# The table of outputs

A report fails if the outputs of the machine and of the native run are not the same text, while its
table sets them side by side line by line.  A line that one of them does not have reads as an empty
one there, and an output that ends in a line end has no further line behind it.  So what the table
compares is `lineAt`, the lines of a text with empty ones from its end on, and these say all about a
text but the number of line feeds at its end (`lineAt_eq_iff`).
-/

set_option autoImplicit false

namespace StackLang

namespace Report

/-! ## Lines with no end -/

/-- Line `k` of a text, which is empty from the end of the text on. -/
def lineAt (cs : List Char) (k : Nat) : List Char := (cs.splitOn '\n').getD k []

/-- A text without the line feeds at its end. -/
def trimmed (cs : List Char) : List Char := cs.rdropWhile (· == '\n')

variable {cs ds : List Char} {c d : Char}

@[simp] theorem lineAt_nil (k : Nat) : lineAt [] k = [] := by
  cases k <;> rfl

@[simp] theorem lineAt_feed_zero (cs : List Char) : lineAt ('\n' :: cs) 0 = [] := by
  simp [lineAt, List.splitOn_cons_eq_if_modifyHead]

@[simp] theorem lineAt_feed_succ (cs : List Char) (k : Nat) :
    lineAt ('\n' :: cs) (k + 1) = lineAt cs k := by
  simp [lineAt, List.splitOn_cons_eq_if_modifyHead]

theorem lineAt_zero (hc : c ≠ '\n') (cs : List Char) : lineAt (c :: cs) 0 = c :: lineAt cs 0 := by
  obtain ⟨line, rest, hsplit⟩ := List.exists_cons_of_ne_nil (List.splitOn_ne_nil '\n' cs)
  simp [lineAt, List.splitOn_cons_eq_if_modifyHead, hc, hsplit]

theorem lineAt_succ (hc : c ≠ '\n') (cs : List Char) (k : Nat) :
    lineAt (c :: cs) (k + 1) = lineAt cs (k + 1) := by
  obtain ⟨line, rest, hsplit⟩ := List.exists_cons_of_ne_nil (List.splitOn_ne_nil '\n' cs)
  simp [lineAt, List.splitOn_cons_eq_if_modifyHead, hc, hsplit]

theorem trimmed_cons (c : Char) (cs : List Char) :
    trimmed (c :: cs) = if c = '\n' ∧ trimmed cs = [] then [] else c :: trimmed cs := by
  simp only [trimmed, List.rdropWhile, List.reverse_cons, List.dropWhile_append,
    List.isEmpty_iff, List.reverse_eq_nil_iff]
  by_cases hcs : cs.reverse.dropWhile (· == '\n') = []
  · by_cases hc : c = '\n' <;> simp [hcs, hc]
  · simp [hcs]

/-- The line feeds at the end of a text begin only empty lines. -/
theorem lineAt_trimmed (cs : List Char) (k : Nat) : lineAt (trimmed cs) k = lineAt cs k := by
  induction cs generalizing k with
  | nil => rfl
  | cons c cs ih =>
    rw [trimmed_cons]
    by_cases hc : c = '\n'
    · subst hc
      by_cases hcs : trimmed cs = []
      · rw [if_pos ⟨rfl, hcs⟩, lineAt_nil]
        cases k with
        | zero => rw [lineAt_feed_zero]
        | succ k => rw [lineAt_feed_succ, ← ih, hcs, lineAt_nil]
      · rw [if_neg fun h => hcs h.2]
        cases k with
        | zero => rw [lineAt_feed_zero, lineAt_feed_zero]
        | succ k => rw [lineAt_feed_succ, lineAt_feed_succ, ih]
    · rw [if_neg fun h => hc h.1]
      cases k with
      | zero => rw [lineAt_zero hc, lineAt_zero hc, ih]
      | succ k => rw [lineAt_succ hc, lineAt_succ hc, ih]

theorem trimmed_eq_nil (h : ∀ k, lineAt cs k = []) : trimmed cs = [] := by
  induction cs with
  | nil => rfl
  | cons c cs ih =>
    by_cases hc : c = '\n'
    · subst hc
      have hcs : trimmed cs = [] := ih fun k => (lineAt_feed_succ cs k).symm.trans (h (k + 1))
      rw [trimmed_cons, if_pos ⟨rfl, hcs⟩]
    · have hline := h 0
      rw [lineAt_zero hc] at hline
      cases hline

theorem trimmed_eq_of_lineAt (h : ∀ k, lineAt cs k = lineAt ds k) : trimmed cs = trimmed ds := by
  induction cs generalizing ds with
  | nil =>
    refine (trimmed_eq_nil fun k => ?_).symm
    rw [← h, lineAt_nil]
  | cons c cs ih =>
    cases ds with
    | nil => exact trimmed_eq_nil fun k => (h k).trans (lineAt_nil k)
    | cons d ds =>
      have hfirst := h 0
      by_cases hc : c = '\n' <;> by_cases hd : d = '\n'
      · subst hc hd
        have htrim : trimmed cs = trimmed ds := ih fun k => by
          rw [← lineAt_feed_succ cs, h, lineAt_feed_succ]
        rw [trimmed_cons, trimmed_cons, htrim]
      · rw [hc, lineAt_feed_zero, lineAt_zero hd] at hfirst
        cases hfirst
      · rw [hd, lineAt_feed_zero, lineAt_zero hc] at hfirst
        cases hfirst
      · rw [lineAt_zero hc, lineAt_zero hd] at hfirst
        obtain ⟨rfl, hline⟩ := List.cons.inj hfirst
        have htrim : trimmed cs = trimmed ds := by
          refine ih fun k => ?_
          cases k with
          | zero => exact hline
          | succ k => rw [← lineAt_succ hc, h, lineAt_succ hc]
        rw [trimmed_cons, trimmed_cons, htrim]

/-- **Lines say all about a text but the number of line feeds at its end.** -/
theorem lineAt_eq_iff : (∀ k, lineAt cs k = lineAt ds k) ↔ trimmed cs = trimmed ds := by
  refine ⟨trimmed_eq_of_lineAt, fun h k => ?_⟩
  rw [← lineAt_trimmed cs, h, lineAt_trimmed]

/-! ## The lines of an output -/

theorem getD_map_splitOn (cs : List Char) (k : Nat) :
    (if cs.isEmpty then [] else (cs.splitOn '\n').map String.ofList).getD k "" =
      String.ofList (lineAt cs k) := by
  cases cs with
  | nil => simp
  | cons c cs => simp [lineAt, List.getD_eq_getElem?_getD, Option.getD_map]

theorem getD_outputLines (s : String) (k : Nat) :
    (outputLines s).getD k "" = String.ofList (lineAt s.toList k) := by
  rw [outputLines, getD_map_splitOn]
  split
  · rename_i hlast
    obtain ⟨cs, hcs⟩ := List.getLast?_eq_some_iff.1 hlast
    have htrim : trimmed (cs ++ ['\n']) = trimmed cs := List.rdropWhile_concat_pos _ _ _ rfl
    rw [hcs, List.dropLast_concat, lineAt_eq_iff.2 htrim]
  · rfl

/-! ## Marks -/

/-- Some row of a table of outputs is marked. -/
def Marked (t : Table) : Prop := ∃ row ∈ t.rows, row[3]? = some (Cell.str "DIFF")

theorem comparison_marked (n : Nat) (a b : String) :
    (compareLines.comparison n a b)[3]? = some (Cell.str "DIFF") ↔ a ≠ b := by
  by_cases h : a = b <;> simp [compareLines.comparison, Cell.str, h]

/-- A row is marked where the lines differ. -/
theorem marked_compareLines (n : Nat) (as bs : List String) :
    (∃ row ∈ compareLines n as bs, row[3]? = some (Cell.str "DIFF")) ↔
      ∃ k, as.getD k "" ≠ bs.getD k "" := by
  fun_induction compareLines n as bs with
  | case1 n => simp
  | case2 n a as ih =>
    rw [List.exists_mem_cons_iff, comparison_marked, ih]
    exact Nat.or_exists_add_one (p := fun k => (a :: as).getD k "" ≠ [].getD k "")
  | case3 n b bs ih =>
    rw [List.exists_mem_cons_iff, comparison_marked, ih]
    exact Nat.or_exists_add_one (p := fun k => [].getD k "" ≠ (b :: bs).getD k "")
  | case4 n a as b bs ih =>
    rw [List.exists_mem_cons_iff, comparison_marked, ih]
    exact Nat.or_exists_add_one (p := fun k => (a :: as).getD k "" ≠ (b :: bs).getD k "")

/-- The table has a mark just if the outputs differ in more than line feeds at their ends. -/
theorem marked_outputTable (i : Interpretation) (n : NativeRun) :
    Marked (outputTable i (some n)) ↔ trimmed i.out.toList ≠ trimmed n.out.toList := by
  have hrows : Marked (outputTable i (some n)) ↔
      ∃ k, (outputLines i.out).getD k "" ≠ (outputLines n.out).getD k "" :=
    marked_compareLines 1 _ _
  rw [hrows, ne_eq, ← lineAt_eq_iff, not_forall]
  simp only [getD_outputLines, ne_eq, String.ofList_inj]

theorem outputText_of_marked {r : Report} {i : Interpretation} (hi : r.interpretation = some i)
    (h : Marked (outputTable i r.native)) :
    r.outputText = "\n" ++ (outputTable i r.native).render ++ "\n" := by
  obtain ⟨row, hrow, -⟩ := h
  have hrows : (outputTable i r.native).rows.isEmpty = false := by
    rw [List.isEmpty_eq_false_iff]
    exact List.ne_nil_of_mem hrow
  simp [outputText, hi, hrows]

/-- **The marks of a report show where its outputs disagree.**  For a program without issues that
ran to its end both ways, a row is marked just if the outputs differ in more than the number of line
feeds at their ends.  The report fails just if they differ at all, so a mark is only found in a
report that fails, and that report shows it. -/
theorem marks_show_disagreement {r : Report} {i : Interpretation} {n : NativeRun}
    (hissues : r.issues = []) (hi : r.interpretation = some i) (hierr : i.error = none)
    (hn : r.native = some n) (hnerr : n.error = none) :
    (Marked (outputTable i r.native) ↔ trimmed i.out.toList ≠ trimmed n.out.toList) ∧
      (r.ok = false ↔ i.out ≠ n.out) ∧
      (Marked (outputTable i r.native) →
        r.ok = false ∧ r.outputText = "\n" ++ (outputTable i r.native).render ++ "\n") := by
  have hmarked : Marked (outputTable i r.native) ↔ trimmed i.out.toList ≠ trimmed n.out.toList := by
    rw [hn]
    exact marked_outputTable i n
  have hok : r.ok = false ↔ i.out ≠ n.out := by
    simp [ok, hissues, hi, hierr, hn, hnerr, ne_comm (a := i.out)]
  refine ⟨hmarked, hok, fun h => ⟨hok.2 fun hout => ?_, outputText_of_marked hi h⟩⟩
  exact hmarked.1 h (by rw [hout])

/-- A second line that differs, and a third that only one of the outputs has. -/
theorem marks_show_disagreement_lines :
    let i : Interpretation := ⟨"1\n2\n3\n", 6, none⟩
    let n : NativeRun := ⟨"1\n\n", none⟩
    let r : Report :=
      { source := "", length := 6, issues := [], interpretation := some i, native := some n }
    trimmed i.out.toList ≠ trimmed n.out.toList ∧ Marked (outputTable i r.native) ∧
      r.ok = false := by
  intro i n r
  have h := marks_show_disagreement (r := r) (i := i) (n := n) rfl rfl rfl rfl rfl
  have hne : trimmed i.out.toList ≠ trimmed n.out.toList := by decide
  exact ⟨hne, h.1.2 hne, (h.2.2 (h.1.2 hne)).1⟩

/-- A line end that is missing, or an empty line too many, fails a report that has no mark. -/
theorem fails_without_marks :
    let i : Interpretation := ⟨"1\n", 2, none⟩
    let r (out : String) : Report :=
      { source := "", length := 2, issues := [], interpretation := some i,
        native := some ⟨out, none⟩ }
    ∀ out ∈ ["1", "1\n\n"],
      i.out ≠ out ∧ (r out).ok = false ∧ ¬ Marked (outputTable i (r out).native) := by
  intro i r
  simp only [r, marked_outputTable]
  decide

end Report

end StackLang

import StackLang.Proofs.Literal
import StackLang.Workbench

/-!
# The names of the cores of timed runs

A workbench that has a valid name gives valid names to its cores, as long as their numbers are
integers of 64 bits (`misuse?_coreName`), and no two runs have cores of the same name
(`coreName_inj`).
-/

set_option autoImplicit false

namespace StackLang

namespace CoreName

/-- An element of a name that breaks no rule. -/
def IsElement (element : List Char) : Prop :=
  bracketProblem? element = none ∧ elementProblem? element = none

theorem problem?_eq_none_iff {name : String} :
    problem? name = none ↔ ∀ e ∈ name.toList.splitOn '.', IsElement e := by
  rw [problem?, Option.or_eq_none_iff, List.findSome?_eq_none_iff, List.findSome?_eq_none_iff]
  constructor
  · exact fun h e he => ⟨h.1 e he, h.2 e he⟩
  · exact fun h => ⟨fun e he => (h e he).1, fun e he => (h e he).2⟩

/-- A valid name stays valid with another element behind a dot. -/
theorem problem?_append {name longer : String} {element : List Char} (h : problem? name = none)
    (hlonger : longer.toList = name.toList ++ '.' :: element) (hdot : '.' ∉ element)
    (helement : IsElement element) : problem? longer = none := by
  rw [problem?_eq_none_iff, hlonger, List.splitOn_append_cons_self, List.splitOn_eq_singleton hdot]
  intro e he
  rcases List.mem_append.1 he with he | he
  · exact problem?_eq_none_iff.1 h e he
  · rwa [List.mem_singleton.1 he]

theorem isElement_core : IsElement "Core".toList := by
  constructor <;> decide

theorem isBalanced_append {cs : List Char} (h : ∀ c ∈ cs, Literal.isDigit c = true)
    (depth : Nat) (rest : List Char) :
    isBalanced depth (cs ++ rest) = isBalanced depth rest := by
  induction cs with
  | nil => rfl
  | cons c cs ih =>
    obtain ⟨hc, hcs⟩ := List.forall_mem_cons.1 h
    rw [List.cons_append, isBalanced, ih hcs]
    · rintro rfl
      exact absurd hc (by decide)
    · rintro rfl
      exact absurd hc (by decide)

/-- The element of a core that is one of several. -/
def indexed (k : Nat) : List Char := "Core[".toList ++ (Nat.toDigits 10 k ++ [']'])

theorem indexed_ne_core {k : Nat} : indexed k ≠ "Core".toList := by
  intro h
  have hlength := congrArg List.length h
  simp [indexed] at hlength

theorem indexed_inj {j k : Nat} (h : indexed j = indexed k) : j = k := by
  have hdigits : Nat.toDigits 10 j = Nat.toDigits 10 k :=
    List.append_cancel_right (List.append_cancel_left h)
  rw [← Nat.ofDigitChars_ten_toDigits (n := j), hdigits, Nat.ofDigitChars_ten_toDigits]

theorem dot_not_mem_indexed (k : Nat) : '.' ∉ indexed k := by
  intro h
  rcases List.mem_append.1 h with h | h
  · exact absurd h (by decide)
  · rcases List.mem_append.1 h with h | h
    · exact absurd (Literal.isDigit_of_mem_toDigits h) (by decide)
    · exact absurd h (by decide)

theorem splitOn_indexed (k : Nat) :
    (indexed k).splitOn '[' = ["Core".toList, Nat.toDigits 10 k ++ [']']] := by
  have hsplit : indexed k = "Core".toList ++ '[' :: (Nat.toDigits 10 k ++ [']']) := rfl
  have hindex : '[' ∉ Nat.toDigits 10 k ++ [']'] := by
    intro h
    rcases List.mem_append.1 h with h | h
    · exact absurd (Literal.isDigit_of_mem_toDigits h) (by decide)
    · exact absurd h (by decide)
  rw [hsplit, List.splitOn_append_cons_self, List.splitOn_eq_singleton (by decide),
    List.splitOn_eq_singleton hindex]
  rfl

theorem indexProblem?_digits {k : Nat} (hk : k < 0x8000000000000000) :
    indexProblem? (Nat.toDigits 10 k ++ [']']) = none := by
  have hfits : Literal.fits k = true := by
    rw [Literal.fits, Bool.and_eq_true, decide_eq_true_iff, decide_eq_true_iff]
    omega
  have hread : (Literal.read? (Nat.toDigits 10 k)).isSome = true := by
    rw [Literal.read?, Literal.signed?_toDigits, Option.bind_some, if_pos hfits]
    rfl
  rw [indexProblem?, List.reverse_append, List.reverse_singleton, List.singleton_append]
  simp [hread]

theorem isElement_indexed {k : Nat} (hk : k < 0x8000000000000000) : IsElement (indexed k) := by
  have hbalanced : isBalanced 0 (indexed k) = true := by
    have hopen : isBalanced 0 (indexed k) = isBalanced 1 (Nat.toDigits 10 k ++ [']']) := rfl
    rw [hopen, isBalanced_append fun _ => Literal.isDigit_of_mem_toDigits]
    rfl
  constructor
  · rw [bracketProblem?, hbalanced, splitOn_indexed]
    simp [indexProblem?_digits hk]
  · have hstem : elementProblem? (indexed k) = elementProblem? "Core".toList := by
      rw [elementProblem?, splitOn_indexed]
      rfl
    rw [hstem]
    decide

end CoreName

namespace Workbench

open CoreName

variable {τ : Type} {b : Workbench τ} {m n : Nat}

theorem toList_coreName_one (b : Workbench τ) :
    (b.coreName 1).toList = b.name.toList ++ '.' :: "Core".toList := by
  rw [coreName, if_pos rfl, String.toList_append]
  rfl

theorem toList_coreName (b : Workbench τ) (hn : n ≠ 1) :
    (b.coreName n).toList = b.name.toList ++ '.' :: indexed (n - 1) := by
  rw [coreName, if_neg hn]
  simp [indexed, Nat.toList_repr]

/-- The cores of a workbench with a valid name have valid names. -/
theorem misuse?_coreName (h : problem? b.name = none) (hn : n ≤ 0x8000000000000000) :
    misuse? (b.coreName n) = none := by
  rw [misuse?, Option.map_eq_none_iff]
  by_cases h1 : n = 1
  · subst h1
    exact problem?_append h (toList_coreName_one b) (by decide) isElement_core
  · exact problem?_append h (toList_coreName b h1) (dot_not_mem_indexed _)
      (isElement_indexed (by omega))

/-- Different runs have cores of different names. -/
theorem coreName_inj (hm : 0 < m) (hn : 0 < n) (h : b.coreName m = b.coreName n) : m = n := by
  have hlist := congrArg String.toList h
  by_cases hm1 : m = 1 <;> by_cases hn1 : n = 1
  · rw [hm1, hn1]
  · rw [hm1, toList_coreName_one, toList_coreName b hn1] at hlist
    cases indexed_ne_core (List.cons.inj (List.append_cancel_left hlist)).2.symm
  · rw [hn1, toList_coreName_one, toList_coreName b hm1] at hlist
    cases indexed_ne_core (List.cons.inj (List.append_cancel_left hlist)).2
  · rw [toList_coreName b hm1, toList_coreName b hn1] at hlist
    have := indexed_inj (List.cons.inj (List.append_cancel_left hlist)).2
    omega

end Workbench

end StackLang

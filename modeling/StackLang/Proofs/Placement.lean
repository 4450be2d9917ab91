/-!
# Sequences in place

`Aligned P a l` says that the elements of `l`, counted from `a` on, each satisfy `P` at their
place.  Code is placed at an address, and items in a listing, in this sense; a sequence made of
parts is in place just if its parts are, one after the other.
-/

set_option autoImplicit false

namespace StackLang

variable {α : Type}

/-- The elements of a list, at the places from `a` on, all satisfy `P`. -/
def Aligned (P : Nat → α → Prop) : Nat → List α → Prop
  | _, [] => True
  | a, x :: l => P a x ∧ Aligned P (a + 1) l

@[simp] theorem aligned_nil (P : Nat → α → Prop) (a : Nat) : Aligned P a [] := trivial

@[simp] theorem aligned_cons {P : Nat → α → Prop} {a : Nat} {x : α} {l : List α} :
    Aligned P a (x :: l) ↔ P a x ∧ Aligned P (a + 1) l := Iff.rfl

@[simp] theorem aligned_append {P : Nat → α → Prop} {a : Nat} {l m : List α} :
    Aligned P a (l ++ m) ↔ Aligned P a l ∧ Aligned P (a + l.length) m := by
  induction l generalizing a with
  | nil => simp
  | cons x l ih => simp [ih, and_assoc, Nat.add_assoc, Nat.add_comm 1]

theorem aligned_iff {P : Nat → α → Prop} {a : Nat} {l : List α} :
    Aligned P a l ↔ ∀ k x, l[k]? = some x → P (a + k) x := by
  induction l generalizing a with
  | nil => simp
  | cons y l ih =>
    rw [aligned_cons, ih]
    constructor
    · rintro ⟨hy, hl⟩ k x hk
      cases k with
      | zero => simpa using (Option.some_inj.1 hk) ▸ hy
      | succ k =>
        have h := hl k x (by simpa using hk)
        rwa [show a + 1 + k = a + (k + 1) by omega] at h
    · intro h
      refine ⟨by simpa using h 0 y rfl, fun k x hk => ?_⟩
      have h' := h (k + 1) x (by simpa using hk)
      rwa [show a + (k + 1) = a + 1 + k by omega] at h'

theorem Aligned.imp {P Q : Nat → α → Prop} {a : Nat} {l : List α} (h : Aligned P a l)
    (hPQ : ∀ k x, P k x → Q k x) : Aligned Q a l := by
  rw [aligned_iff] at h ⊢
  exact fun k x hk => hPQ _ x (h k x hk)

end StackLang

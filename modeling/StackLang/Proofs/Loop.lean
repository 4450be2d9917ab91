/-!
# Loops

A loop takes rounds until one of them ends it.  `Loop round a b` says that the rounds from `a` on
come to an end, with `b`: then `b` is what the loop returns (`Loop.repeatM_eq`).  A loop that takes
along more than another, but otherwise goes through the same rounds, ends when the other does
(`Loop.exists_of_map`).
-/

set_option autoImplicit false

namespace StackLang

variable {α β γ δ : Type} {round : α → α ⊕ β} {a : α} {b : β}

/-- The rounds from a state on end with a result. -/
inductive Loop (round : α → α ⊕ β) : α → β → Prop
  | stop {a : α} {b : β} : round a = .inr b → Loop round a b
  | go {a a' : α} {b : β} : round a = .inl a' → Loop round a' b → Loop round a b

/-- A loop is its first round, and the loop from the state that is left to go on with. -/
theorem repeatM_eq_elim [Nonempty β] (round : α → α ⊕ β) (a : α) :
    Id.run (repeatM round a) = (round a).elim (fun a' => Id.run (repeatM round a')) id := by
  rw [repeatM_eq_of_monadTail, repeatM.body]
  cases round a <;> rfl

theorem Loop.repeatM_eq [Nonempty β] (h : Loop round a b) : Id.run (repeatM round a) = b := by
  induction h with
  | stop hround => rw [repeatM_eq_elim, hround]; rfl
  | go hround _ ih => rw [repeatM_eq_elim, hround]; exact ih

theorem Loop.exists_of_map {round' : γ → γ ⊕ δ} {f : γ → α} {g : δ → β}
    (hround : ∀ c, round (f c) = (round' c).map f g) {c : γ} (h : Loop round (f c) b) :
    ∃ d, Loop round' c d ∧ g d = b := by
  generalize hfc : f c = a at h
  induction h generalizing c with
  | stop hstop =>
    rw [← hfc, hround] at hstop
    cases hc : round' c with
    | inl c' => rw [hc] at hstop; cases hstop
    | inr d => rw [hc] at hstop; exact ⟨d, .stop hc, Sum.inr.inj hstop⟩
  | go hgo _ ih =>
    rw [← hfc, hround] at hgo
    cases hc : round' c with
    | inl c' =>
      rw [hc] at hgo
      obtain ⟨d, hd, hgd⟩ := ih (Sum.inl.inj hgo)
      exact ⟨d, .go hc hd, hgd⟩
    | inr d => rw [hc] at hgo; cases hgo

end StackLang

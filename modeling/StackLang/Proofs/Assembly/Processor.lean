import StackLang.Assembly.Registers
import Mathlib.Computability.StateTransition

/-!
# Passing items

What holds of every processor: an instruction is executed, and anything else is passed over.  Where
a processor gets is `StateTransition.Reaches` of its steps.
-/

set_option autoImplicit false

namespace StackLang.Assembly

open StateTransition (Reaches)

/-- A number of steps leads to where the last of them ends. -/
theorem reaches_of_iterate {α : Type} {f : α → Option α} {m m' : α} (n : Nat)
    (h : (fun o => Option.bind o f)^[n] (some m) = some m') : Reaches f m m' := by
  induction n generalizing m' with
  | zero =>
    cases h
    exact .refl
  | succ n ih =>
    rw [Function.iterate_succ_apply'] at h
    obtain ⟨m₁, hm₁, hstep⟩ := Option.bind_eq_some_iff.1 h
    exact (ih hm₁).tail hstep

namespace Processor

variable {α : Type} {c : Processor α} {code : List Item} {m m' : α}

theorem reaches_inst {i : Inst} (hm : c.stopped m = false) (hi : code[c.pc m]? = some (.inst i))
    (h : c.exec m i = some m') : Reaches (c.step code) m m' := by
  refine .single ?_
  rw [step, hm, hi]
  exact h

/-- Labels, headings and directives are passed over. -/
theorem reaches_next {x : Item} (hm : c.stopped m = false) (hx : code[c.pc m]? = some x)
    (hne : ∀ i, x ≠ .inst i) : Reaches (c.step code) m (c.next m) := by
  refine .single ?_
  rw [step, hm, hx]
  cases x with
  | inst i => exact absurd rfl (hne i)
  | _ => rfl

end Processor

end StackLang.Assembly

import StackLang.Proofs.Result
import StackLang.Yaml.Text

/-!
# What decoding returns

`Decode.Returns x P` says that whatever `x` returns satisfies `P`, if it returns at all: decoding
may also end with an error.  A property of records that every field of a record type keeps is then
kept by decoding a whole document, through all merges and references (`readInto_returns`,
`decodeText_keeps`).
-/

set_option autoImplicit false

namespace StackLang

namespace Yaml

variable {α β ρ : Type}

/-! ## Decoding -/

namespace Decode

/-- Whatever `x` returns satisfies `P`. -/
def Returns (x : Decode α) (P : α → Prop) : Prop :=
  ∀ scope s a s', (x.run scope).run s = .ok (a, s') → P a

variable {x : Decode α} {P Q : α → Prop}

theorem returns_true (x : Decode α) : Returns x fun _ => True := fun _ _ _ _ _ => trivial

theorem returns_pure {a : α} (h : P a) : Returns (pure a) P := by
  rintro scope s _ _ ⟨⟩
  exact h

theorem returns_throw (e : Stop) : Returns (throw e : Decode α) P := by
  intro scope s a s' h
  cases h

theorem returns_throw_bind (e : Stop) {f : α → Decode β} {R : β → Prop} :
    Returns (throw e >>= f) R := by
  intro scope s a s' h
  cases h

theorem returns_bind {f : α → Decode β} {R : β → Prop} (hx : Returns x Q)
    (hf : ∀ a, Q a → Returns (f a) R) : Returns (x >>= f) R := by
  intro scope s b s' h
  cases hrun : (x.run scope).run s with
  | error e =>
    have herr : ((x >>= f).run scope).run s = .error e := by
      show (x.run scope).run s >>= _ = _
      rw [hrun]
      rfl
    rw [herr] at h
    cases h
  | ok r =>
    obtain ⟨a, t⟩ := r
    have hok : ((x >>= f).run scope).run s = ((f a).run scope).run t := by
      show (x.run scope).run s >>= _ = _
      rw [hrun]
      rfl
    rw [hok] at h
    exact hf a (hx scope s a t hrun) scope t b s' h

theorem returns_ite {c : Prop} [Decidable c] {y : Decode α} (hx : Returns x P) (hy : Returns y P) :
    Returns (if c then x else y) P := by
  split
  · exact hx
  · exact hy

/-- What the first of two steps returns does not matter. -/
theorem returns_of_bind {f : α → Decode β} {R : β → Prop} (hf : ∀ a, Returns (f a) R) :
    Returns (x >>= f) R :=
  returns_bind (returns_true x) fun a _ => hf a

theorem returns_withReader {g : Scope → Scope} (h : Returns x P) : Returns (withReader g x) P :=
  fun scope s a s' hrun => h (g scope) s a s' hrun

/-- Following a reference does not add to what is returned. -/
theorem returns_follow {n : Node} {f : Node → Decode α} (h : ∀ n, Returns (f n) P) :
    Returns (follow n f) P := by
  refine returns_of_bind fun _ => ?_
  cases n with
  | reference line name target serial =>
    refine returns_of_bind fun scope => ?_
    split
    · exact returns_throw_bind _
    · exact returns_withReader (returns_of_bind fun _ => h _)
  | _ => exact h _

end Decode

/-! ## Scalars and lists -/

open Decode

theorem scalarAs_returns {type : String} {f : Meaning → String → Option α} {P : α → Prop}
    (h : ∀ m text a, f m text = some a → P a) (n : Node) :
    Returns (scalarAs type f n) fun v => ∀ a, v = some a → P a := by
  cases n with
  | scalar line tag quoted value =>
    refine returns_of_bind fun x => ?_
    split
    · exact returns_pure nofun
    · split
      · rename_i v hv
        refine returns_pure ?_
        rintro _ ⟨⟩
        exact h _ _ _ hv
      · exact returns_of_bind fun _ => returns_pure nofun
  | _ => exact returns_of_bind fun _ => returns_pure nofun

theorem readItems_returns {item : Node → Decode (Option α)} {P : α → Prop}
    (h : ∀ n, Returns (item n) fun v => ∀ a, v = some a → P a) (l : List Node) :
    Returns (readItems item l) fun vs => ∀ a ∈ vs, P a := by
  induction l with
  | nil => exact returns_pure (by simp)
  | cons n rest ih =>
    refine returns_bind (h n) fun v hv => returns_bind ih fun vs hvs => returns_pure ?_
    cases v with
    | none => exact hvs
    | some a => exact List.forall_mem_cons.2 ⟨hv a rfl, hvs⟩

theorem readList_returns {type : String} {item : Node → Decode (Option α)} {P : α → Prop}
    (h : ∀ n, Returns (item n) fun v => ∀ a, v = some a → P a) (n : Node) :
    Returns (readList type item n) fun v => ∀ l, v = some l → ∀ a ∈ l.getD [], P a := by
  refine returns_follow fun n => ?_
  split
  · refine returns_bind (readItems_returns h _) fun vs hvs => returns_pure ?_
    rintro _ ⟨⟩
    exact hvs
  · refine returns_of_bind fun x => ?_
    split
    · exact returns_pure (by simp)
    · exact returns_of_bind fun _ => returns_pure nofun
  · exact returns_of_bind fun _ => returns_pure nofun

/-! ## Merges -/

theorem mergeAll_returns {into : ρ → Node → Decode ρ} {P : ρ → Prop}
    (h : ∀ r n, P r → Returns (into r n) P) (l : List Node) {r : ρ} (hr : P r) :
    Returns (mergeAll into r l) P := by
  induction l generalizing r with
  | nil => exact returns_pure hr
  | cons n rest ih =>
    refine returns_of_bind fun _ => ?_
    split
    · exact returns_throw_bind _
    · exact returns_bind (h r n hr) fun _ hr' => ih hr'

theorem merge_returns {any : Node → Decode (Option Value)} {into : ρ → Node → Decode ρ}
    {P : ρ → Prop} (h : ∀ r n, P r → Returns (into r n) P) (pairs : List (Node × Node))
    (other : Node) {r : ρ} (hr : P r) : Returns (merge any into pairs other r) P := by
  -- settling keys before the merge, and forgetting them behind it, changes no record
  refine returns_of_bind fun s =>
    returns_ite (returns_of_bind fun _ => returns_of_bind fun _ => ?_) ?_
  all_goals
    cases other
    all_goals
      refine returns_bind (mergeAll_returns h _ hr) fun v hv => ?_
      exact returns_ite (returns_of_bind fun _ => returns_pure hv) (returns_pure hv)

/-! ## Records -/

/-- Reading the field into a record keeps a property of it. -/
def Field.Keeps (f : Field ρ) (P : ρ → Prop) : Prop := ∀ n r, P r → Returns (f.read n r) P

theorem Field.keeps_of {key : String} {read : Node → Decode (Option α)} {set : ρ → α → ρ}
    {inPart : Bool} {P : ρ → Prop} {Q : α → Prop}
    (hread : ∀ n, Returns (read n) fun v => ∀ a, v = some a → Q a)
    (hset : ∀ r a, P r → Q a → P (set r a)) : (Field.of key read set inPart).Keeps P := by
  intro n r hr
  refine returns_bind (hread n) fun v hv => ?_
  cases v with
  | none => exact returns_pure hr
  | some a => exact returns_pure (hset r a hr (hv a rfl))

/-- A field whose value does not matter to the property. -/
theorem Field.keeps_of_set {key : String} {read : Node → Decode (Option α)} {set : ρ → α → ρ}
    {inPart : Bool} {P : ρ → Prop} (hset : ∀ r a, P r → P (set r a)) :
    (Field.of key read set inPart).Keeps P :=
  keeps_of (Q := fun _ => True) (fun _ _ _ _ _ _ _ _ => trivial) fun r a hr _ => hset r a hr

namespace Record

variable {r : Record ρ} {P : ρ → Prop}

/-- Every field keeps the property. -/
def Keeps (r : Record ρ) (P : ρ → Prop) : Prop := ∀ f ∈ r.fields, f.Keeps P

theorem readPair_returns (h : r.Keeps P) {isNull : Bool} {f : Filling ρ} (hf : P f.value)
    (key value : Node) : Returns (r.readPair isNull f key value) fun g => P g.value := by
  refine returns_ite (returns_pure hf) (returns_of_bind fun name => ?_)
  cases name with
  | none => exact returns_pure hf
  | some name =>
    dsimp only
    split
    case' h_2 =>
      refine returns_of_bind fun keys => ?_
      split
    -- whether and how the key is settled, the field is read in the same way
    all_goals
      refine returns_of_bind fun x => returns_ite (returns_pure hf) ?_
      split
      · exact returns_of_bind fun _ => returns_pure hf
      · rename_i field hfield
        have hread := h field (List.mem_of_find?_eq_some hfield) value _ hf
        exact returns_ite (returns_of_bind fun _ => returns_pure hf)
          (returns_ite (returns_throw_bind _) (returns_bind hread fun v hv => returns_pure hv))

theorem readPairs_returns (h : r.Keeps P) {isNull : Bool} {f : Filling ρ} (hf : P f.value)
    (pairs : List (Node × Node)) :
    Returns (r.readPairs isNull f pairs) fun g => P g.value := by
  induction pairs generalizing f with
  | nil => exact returns_pure hf
  | cons pair rest ih =>
    exact returns_bind (readPair_returns h hf pair.1 pair.2) fun g hg => ih hg

/-- **A property that every field keeps is kept by a whole node**, whatever is merged into it. -/
theorem readInto_returns (h : r.Keeps P) (fuel : Nat) {v : ρ} (hv : P v) (n : Node) :
    Returns (r.readInto fuel v n) fun x => P x.2 := by
  induction fuel generalizing v n with
  | zero => exact returns_throw _
  | succ fuel ih =>
    refine returns_follow fun n => ?_
    cases n with
    | map line tag pairs =>
      refine returns_of_bind fun _ => returns_ite (returns_pure hv) ?_
      refine returns_of_bind fun s => returns_of_bind fun _ => ?_
      refine returns_bind (readPairs_returns h (f := ⟨v, [], s.settled, none⟩) hv pairs)
        fun f hf => returns_of_bind fun _ => ?_
      split
      · exact returns_pure hf
      · refine returns_bind (merge_returns (fun w n hw => ?_) pairs _ hf)
          fun w hw => returns_pure hw
        exact returns_bind (ih hw n) fun x hx => returns_pure hx
    | scalar line tag quoted text =>
      refine returns_of_bind fun x => ?_
      split
      · exact returns_pure hv
      · exact returns_of_bind fun _ => returns_pure hv
    | _ => exact returns_of_bind fun _ => returns_pure hv

theorem read_returns (h : r.Keeps P) {v : ρ} (hv : P v) (n : Node) :
    Returns (r.read v n) fun x => ∀ a, x = some a → P a := by
  refine returns_bind (readInto_returns h mergeFuel hv n) fun x hx => returns_pure ?_
  intro a ha
  obtain ⟨good, w⟩ := x
  cases good with
  | false => cases ha
  | true => cases ha; exact hx

theorem decodeText_keeps (h : r.Keeps P) {v w : ρ} (hv : P v) {octets : List UInt8}
    (hw : r.decodeText v octets = .ok w) : P w := by
  unfold decodeText at hw
  split at hw
  · cases hw
  · cases hw
  · split at hw
    · cases hw
    · rename_i hdecode
      cases hw
      obtain ⟨x, hx, hpure⟩ := exists_of_bind_ok hdecode
      have hvalue : x.1.2 = w := (Prod.mk.inj (Except.ok.inj hpure)).1
      exact hvalue ▸ readInto_returns h mergeFuel hv _ _ _ _ _ hx
    · cases hw

end Record

end Yaml

end StackLang

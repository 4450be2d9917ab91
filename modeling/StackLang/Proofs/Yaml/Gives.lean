import StackLang.Yaml.Text

/-!
# What decoding is sure to return

`Decode.Gives x a` says that `x` returns `a`, without a problem, wherever no reference is followed
and nothing is merged.  It holds of scalars by what they mean, and of a mapping with distinct keys
once every pair gives its field (`Record.readPairs_gives`, `Record.Fills`).
-/

set_option autoImplicit false

namespace StackLang.Yaml

variable {α β ρ : Type}

/-! ## Steps -/

namespace Decode

/-- `x` returns `a`, and changes nothing but the number of visits, outside of references and
merges. -/
def Gives (x : Decode α) (a : α) : Prop :=
  ∀ scope s, scope.following = [] → s.borrowed = 0 → s.settled = none →
    ∃ visits, (x.run scope).run s = .ok (a, { s with visits })

theorem gives_pure (a : α) : Gives (pure a) a := fun _ s _ _ _ => ⟨s.visits, rfl⟩

theorem Gives.bind {x : Decode α} {f : α → Decode β} {a : α} {b : β} (hx : Gives x a)
    (hf : Gives (f a) b) : Gives (x >>= f) b := by
  intro scope s hscope hborrowed hsettled
  obtain ⟨visits, hrun⟩ := hx scope s hscope hborrowed hsettled
  obtain ⟨visits', hrun'⟩ := hf scope { s with visits } hscope hborrowed hsettled
  refine ⟨visits', ?_⟩
  show (x.run scope).run s >>= _ = _
  rw [hrun]
  exact hrun'

theorem gives_lift {x : Except Stop α} {a : α} (h : x = .ok a) : Gives (liftM x) a := by
  subst h
  exact gives_pure a

theorem gives_visit : Gives visit () := by
  intro scope s hscope hborrowed hsettled
  refine ⟨s.visits + 1, ?_⟩
  obtain ⟨named, following⟩ := scope
  obtain ⟨problems, visits, borrowed, settled⟩ := s
  cases hscope
  cases hborrowed
  rfl

theorem gives_get_bind {f : Progress → Decode α} {a : α}
    (h : ∀ s : Progress, s.settled = none → Gives (f s) a) : Gives (get >>= f) a :=
  fun scope s hscope hborrowed hsettled => h s hsettled scope s hscope hborrowed hsettled

/-- No keys are settled, and none are when nothing is merged. -/
theorem gives_settled : Gives (modify fun s => { s with settled := none }) () := by
  rintro scope ⟨problems, visits, borrowed, settled⟩ _ _ ⟨⟩
  exact ⟨visits, rfl⟩

/-- A node that is no reference is visited once. -/
theorem gives_follow {n : Node} {f : Node → Decode α} {a : α}
    (hn : ∀ line name target serial, n ≠ .reference line name target serial)
    (h : Gives (f n) a) : Gives (follow n f) a := by
  refine gives_visit.bind ?_
  cases n with
  | reference line name target serial => exact absurd rfl (hn line name target serial)
  | _ => exact h

end Decode

/-! ## Scalars and lists -/

open Decode

variable {l : Nat} {quoted : Bool} {text : String}

theorem scalarAs_gives {type : String} {f : Meaning → String → Option α} {x : Scalar} {a : α}
    (hx : scalarOf none quoted text = .ok x) (hm : x.meaning ≠ .null)
    (ha : f x.meaning x.text = some a) :
    Gives (scalarAs type f (.scalar l none quoted text)) (some a) := by
  refine (gives_lift hx).bind ?_
  split
  · exact absurd ‹_› hm
  · rw [ha]
    exact gives_pure _

/-- A plain scalar is what it means. -/
theorem exists_scalarOf_eq (text : String) :
    ∃ tag, scalarOf none false text = .ok ⟨tag, Plain.meaning true text, text⟩ := by
  by_cases hmerge : text = "<<"
  · subst hmerge
    exact ⟨"!!merge", rfl⟩
  · refine ⟨(Plain.meaning true text).tag, ?_⟩
    show (if (text == "<<") = true then Except.ok _ else _) = _
    rw [if_neg (by simpa using hmerge)]

theorem scalarAs_gives_plain {type : String} {f : Meaning → String → Option α} {m : Meaning}
    {a : α} (h : Plain.meaning true text = m) (hm : m ≠ .null) (ha : f m text = some a) :
    Gives (scalarAs type f (.scalar l none false text)) (some a) := by
  subst h
  obtain ⟨tag, hscalar⟩ := exists_scalarOf_eq text
  exact scalarAs_gives hscalar hm ha

/-- A scalar that is a string: one that is quoted, or that has no other meaning. -/
def IsString (quoted : Bool) (text : String) : Prop :=
  quoted = true ∨ Plain.meaning true text = .str

theorem IsString.shortTag_ne (h : IsString quoted text) :
    (Node.scalar l none quoted text).shortTag ≠ "!!null" := by
  cases quoted with
  | true => exact (by decide : "!!str" ≠ "!!null")
  | false =>
    show (if (text == "<<") = true then "!!merge" else (Plain.meaning true text).tag) ≠ "!!null"
    rw [h.resolve_left Bool.false_ne_true]
    split <;> decide

theorem stringOf_gives (h : IsString quoted text) :
    Gives (stringOf (.scalar l none quoted text)) (some text) := by
  cases quoted with
  | true => exact scalarAs_gives rfl nofun rfl
  | false => exact scalarAs_gives_plain (h.resolve_left Bool.false_ne_true) nofun rfl

theorem readString_gives (h : IsString quoted text) :
    Gives (readString (.scalar l none quoted text)) (some text) :=
  gives_follow nofun (stringOf_gives h)

theorem readBool_gives {b : Bool} (h : Plain.meaning true text = .bool b) :
    Gives (readBool (.scalar l none false text)) (some b) :=
  gives_follow nofun (scalarAs_gives_plain h nofun rfl)

theorem readInt_gives {type : String} {n : Int} (h : Plain.meaning true text = .int n)
    (hfits : Literal.fits n = true) :
    Gives (readInt type (.scalar l none false text)) (some (Int64.ofInt n)) :=
  gives_follow nofun (scalarAs_gives_plain h nofun (if_pos hfits))

theorem readItems_gives {item : Node → Decode (Option α)} {n : Node} {rest : List Node} {a : α}
    {as : List α} (hitem : Gives (item n) (some a)) (hrest : Gives (readItems item rest) as) :
    Gives (readItems item (n :: rest)) (a :: as) :=
  hitem.bind (hrest.bind (gives_pure _))

theorem readList_gives {type : String} {item : Node → Decode (Option α)} {items : List Node}
    {as : List α} (h : Gives (readItems item items) as) :
    Gives (readList type item (.seq l none items)) (some (some as)) :=
  gives_follow nofun (h.bind (gives_pure _))

/-! ## Records -/

theorem Field.of_gives {key : String} {read : Node → Decode (Option α)} {set : ρ → α → ρ}
    {inPart : Bool} {n : Node} {v : ρ} {a : α} (h : Gives (read n) (some a)) :
    Gives ((Field.of key read set inPart).read n v) (set v a) :=
  h.bind (gives_pure _)

namespace Record

variable {r : Record ρ} {value : Node} {pairs : List (Node × Node)}

/-- A pair under the key of a field that has not been given before. -/
theorem readPair_gives {f : Filling ρ} {name : String} {field : Field ρ} {v : ρ}
    (hname : IsString false name) (hmerge : name ≠ "<<")
    (hfield : r.fields.find? (·.key == name) = some field)
    (hgiven : f.given.contains name = false) (hsettled : f.settled = none)
    (hread : Gives (field.read value f.value) v) :
    Gives (r.readPair false f (.scalar l none false name) value)
      { f with value := v, given := name :: f.given } := by
  obtain ⟨w, given, settled, merge⟩ := f
  cases hsettled
  have hkey : isMergeKey (.scalar l none false name) = false := by
    simp [isMergeKey, hmerge]
  rw [readPair, hkey]
  refine (readString_gives hname).bind ((gives_pure (true, none)).bind ?_)
  simp only [hfield, hgiven, Bool.and_false]
  exact hread.bind (gives_pure _)

theorem readPairs_gives {f g : Filling ρ} {name : String} {read : Node → Decode (Option α)}
    {set : ρ → α → ρ} {inPart : Bool} {a : α} {rest : List (Node × Node)}
    (hname : IsString false name) (hmerge : name ≠ "<<")
    (hfield : r.fields.find? (·.key == name) = some (.of name read set inPart))
    (hgiven : f.given.contains name = false) (hsettled : f.settled = none)
    (hread : Gives (read value) (some a))
    (hrest : Gives
      (r.readPairs false { f with value := set f.value a, given := name :: f.given } rest) g) :
    Gives (r.readPairs false f ((.scalar l none false name, value) :: rest)) g :=
  (readPair_gives hname hmerge hfield hgiven hsettled (Field.of_gives hread)).bind hrest

/-- The pairs of a mapping, whose keys are distinct, turn the record `v` into `w`. -/
structure Fills (r : Record ρ) (pairs : List (Node × Node)) (v w : ρ) : Prop where
  distinct : repeatedKeys pairs = []
  filling : ∃ given, Gives (r.readPairs false { value := v } pairs) { value := w, given }

variable {v w : ρ}

theorem readInto_gives (h : r.Fills pairs v w) (fuel : Nat) :
    Gives (r.readInto (fuel + 1) v (.map l none pairs)) (true, w) := by
  obtain ⟨given, hpairs⟩ := h.filling
  have hdistinct : Gives (distinctKeys pairs) true := by
    rw [distinctKeys, h.distinct]
    exact gives_pure true
  refine gives_follow nofun (hdistinct.bind ?_)
  refine gives_get_bind fun s hs => gives_settled.bind ?_
  rw [hs]
  exact hpairs.bind (gives_settled.bind (gives_pure _))

theorem read_gives (h : r.Fills pairs v w) : Gives (r.read v (.map l none pairs)) (some w) :=
  (readInto_gives h 999999).bind (gives_pure _)

/-- **A text is decoded as the record that the pairs of its mapping fill.** -/
theorem decodeText_eq_ok (hread : Document.read text = some (some { root := .map l none pairs }))
    (h : r.Fills pairs v w) : r.decodeText v text = .ok w := by
  obtain ⟨visits, hrun⟩ := @readInto_gives _ l _ _ _ _ h 999999 {} { visits := 1 } rfl rfl rfl
  have hdecode : r.decode v { root := .map l none pairs } = .ok (w, []) := by
    rw [decode, mergeFuel, hrun]
    rfl
  delta decodeText
  simp only [hread, hdecode]

end Record

end StackLang.Yaml

import StackLang.Yaml.Document

/-!
# Reading blocks

The tokens of scalars, of sequences and of mappings in blocks are read as such nodes, wherever they
stand (`IsNode`), with one unit of fuel for each token.
-/

set_option autoImplicit false

namespace StackLang.Yaml

variable {l m : Nat} {quoted : Bool} {text : String} {tokens more : List Lexeme} {node : Node}

/-- The tokens of a node, which is read from them whatever follows. -/
structure IsNode (tokens : List Lexeme) (node : Node) : Prop where
  starts : ∃ t rest, tokens = t :: rest ∧ endsBlockEntry t.token = false ∧ endsItem t.token = false
  read : ∀ (r : Reading) (rest : List Lexeme) (fuel : Nat) (asValue : Bool),
    r.tokens = tokens ++ rest → tokens.length ≤ fuel →
      readNode fuel true asValue r = some (node, { r with tokens := rest })

/-- The tokens of the pairs of a mapping, up to the end of its block. -/
def ArePairs (tokens : List Lexeme) (pairs : List (Node × Node)) : Prop :=
  ∀ (r : Reading) (rest : List Lexeme) (fuel : Nat) (done : List (Node × Node)),
    r.tokens = tokens ++ rest → tokens.length ≤ fuel →
      blockPairs fuel done r = some (done.reverse ++ pairs, { r with tokens := rest })

/-- The tokens of the items of a sequence, up to the end of its block. -/
def AreItems (tokens : List Lexeme) (items : List Node) : Prop :=
  ∀ (r : Reading) (rest : List Lexeme) (fuel : Nat) (done : List Node),
    r.tokens = tokens ++ rest → tokens.length ≤ fuel →
      blockItems fuel done r = some (done.reverse ++ items, { r with tokens := rest })

/-! ## Scalars -/

theorem isNode_scalar (l : Nat) (quoted : Bool) (text : String) :
    IsNode [⟨.scalar quoted text, l⟩] (.scalar l none quoted text) := by
  refine ⟨⟨_, _, rfl, rfl, rfl⟩, fun r rest fuel asValue heq hfuel => ?_⟩
  obtain ⟨fuel, rfl⟩ := Nat.exists_eq_succ_of_ne_zero (Nat.ne_zero_of_lt hfuel)
  obtain ⟨ts, handles, names, named, references⟩ := r
  cases heq
  rfl

theorem isNode_brackets (l m : Nat) :
    IsNode [⟨.flowSeq, l⟩, ⟨.flowSeqEnd, m⟩] (.seq l none []) := by
  refine ⟨⟨_, _, rfl, rfl, rfl⟩, fun r rest fuel asValue heq hfuel => ?_⟩
  obtain ⟨fuel, rfl⟩ := Nat.exists_eq_add_of_le' hfuel
  obtain ⟨ts, handles, names, named, references⟩ := r
  cases heq
  rfl

/-! ## Mappings -/

theorem arePairs_nil (l : Nat) : ArePairs [⟨.blockEnd, l⟩] [] := by
  intro r rest fuel done heq hfuel
  obtain ⟨fuel, rfl⟩ := Nat.exists_eq_succ_of_ne_zero (Nat.ne_zero_of_lt hfuel)
  obtain ⟨ts, handles, names, named, references⟩ := r
  cases heq
  rw [List.append_nil]
  rfl

theorem IsNode.blockEntry_eq (h : IsNode tokens node) {r : Reading} {rest : List Lexeme}
    {fuel : Nat} (heq : r.tokens = tokens ++ rest) (hfuel : tokens.length ≤ fuel) (line : Nat) :
    blockEntry (fuel + 1) line r = some (node, { r with tokens := rest }) := by
  obtain ⟨t, ts, hts, hends, -⟩ := h.starts
  have hpeek : r.peek? = some t := by rw [Reading.peek?, heq, hts]; rfl
  rw [blockEntry, hpeek]
  simp only [Option.bind_eq_bind, Option.bind_some, hends, Bool.false_eq_true, if_false]
  exact h.read r rest fuel true heq hfuel

theorem arePairs_cons {pairs : List (Node × Node)} {k : String} (hnode : IsNode tokens node)
    (hmore : ArePairs more pairs) :
    ArePairs (⟨.key, l⟩ :: ⟨.scalar false k, l⟩ :: ⟨.value, l⟩ :: (tokens ++ more))
      ((.scalar l none false k, node) :: pairs) := by
  intro r rest fuel done heq hfuel
  rw [List.length_cons, List.length_cons, List.length_cons, List.length_append] at hfuel
  obtain ⟨fuel, rfl⟩ : ∃ n, fuel = n + 2 := ⟨fuel - 2, by omega⟩
  have hpeek : r.peek? = some ⟨.key, l⟩ := by rw [Reading.peek?, heq]; rfl
  have hskip : r.skip = { r with
      tokens := ⟨.scalar false k, l⟩ :: ⟨.value, l⟩ :: (tokens ++ (more ++ rest)) } := by
    rw [Reading.skip, heq, ← List.append_assoc]
    rfl
  have hkey : blockEntry (fuel + 1) l r.skip = some (.scalar l none false k,
      { r with tokens := ⟨.value, l⟩ :: (tokens ++ (more ++ rest)) }) := by
    rw [hskip]
    exact (isNode_scalar l false k).blockEntry_eq rfl (by simp; omega) l
  have hvalue : blockEntry (fuel + 1) l { r with tokens := tokens ++ (more ++ rest) } =
      some (node, { r with tokens := more ++ rest }) := hnode.blockEntry_eq rfl (by omega) l
  rw [blockPairs, hpeek]
  show Option.bind (blockEntry (fuel + 1) l r.skip) _ = _
  rw [hkey]
  show Option.bind (blockEntry (fuel + 1) l { r with tokens := tokens ++ (more ++ rest) }) _ = _
  rw [hvalue]
  show blockPairs (fuel + 1) _ _ = _
  rw [hmore _ rest _ _ rfl (by omega), List.reverse_cons, List.append_assoc]
  rfl

theorem isNode_map {pairs : List (Node × Node)} (h : ArePairs tokens pairs) :
    IsNode (⟨.blockMap, l⟩ :: tokens) (.map l none pairs) := by
  refine ⟨⟨_, _, rfl, rfl, rfl⟩, fun r rest fuel asValue heq hfuel => ?_⟩
  obtain ⟨fuel, rfl⟩ := Nat.exists_eq_succ_of_ne_zero (Nat.ne_zero_of_lt hfuel)
  obtain ⟨ts, handles, names, named, references⟩ := r
  cases heq
  have hnode : readNode (fuel + 1) true asValue
      ⟨⟨.blockMap, l⟩ :: (tokens ++ rest), handles, names, named, references⟩ =
        (blockPairs fuel [] ⟨tokens ++ rest, handles, names, named, references⟩).bind
          fun p => some (.map l none p.1, p.2) := by
    cases asValue <;> rfl
  refine hnode.trans ?_
  rw [h _ rest fuel [] rfl (Nat.le_of_succ_le_succ hfuel)]
  rfl

/-! ## Sequences -/

theorem areItems_nil (l : Nat) : AreItems [⟨.blockEnd, l⟩] [] := by
  intro r rest fuel done heq hfuel
  obtain ⟨fuel, rfl⟩ := Nat.exists_eq_succ_of_ne_zero (Nat.ne_zero_of_lt hfuel)
  obtain ⟨ts, handles, names, named, references⟩ := r
  cases heq
  rw [List.append_nil]
  rfl

theorem areItems_cons {items : List Node} (hnode : IsNode tokens node)
    (hmore : AreItems more items) :
    AreItems (⟨.item, l⟩ :: (tokens ++ more)) (node :: items) := by
  intro r rest fuel done heq hfuel
  rw [List.length_cons, List.length_append] at hfuel
  obtain ⟨fuel, rfl⟩ : ∃ n, fuel = n + 1 := ⟨fuel - 1, by omega⟩
  obtain ⟨t, ts, hts, -, hends⟩ := hnode.starts
  have hpeek : r.peek? = some ⟨.item, l⟩ := by rw [Reading.peek?, heq]; rfl
  have hskip : r.skip = { r with tokens := tokens ++ (more ++ rest) } := by
    rw [Reading.skip, heq, ← List.append_assoc]
    rfl
  have hfirst : Reading.peek? { r with tokens := tokens ++ (more ++ rest) } = some t := by
    rw [Reading.peek?, hts]
    rfl
  have hitem : readNode fuel true false { r with tokens := tokens ++ (more ++ rest) } =
      some (node, { r with tokens := more ++ rest }) :=
    hnode.read _ (more ++ rest) fuel false rfl (by omega)
  rw [blockItems, hpeek]
  simp only [Option.bind_eq_bind, Option.bind_some, hskip, hfirst, hends, Bool.false_eq_true,
    if_false, hitem]
  rw [hmore _ rest _ _ rfl (by omega), List.reverse_cons, List.append_assoc]
  rfl

theorem isNode_seq {items : List Node} (h : AreItems tokens items) :
    IsNode (⟨.blockSeq, l⟩ :: tokens) (.seq l none items) := by
  refine ⟨⟨_, _, rfl, rfl, rfl⟩, fun r rest fuel asValue heq hfuel => ?_⟩
  obtain ⟨fuel, rfl⟩ := Nat.exists_eq_succ_of_ne_zero (Nat.ne_zero_of_lt hfuel)
  obtain ⟨ts, handles, names, named, references⟩ := r
  cases heq
  have hnode : readNode (fuel + 1) true asValue
      ⟨⟨.blockSeq, l⟩ :: (tokens ++ rest), handles, names, named, references⟩ =
        (blockItems fuel [] ⟨tokens ++ rest, handles, names, named, references⟩).bind
          fun p => some (.seq l none p.1, p.2) := by
    cases asValue <;> rfl
  refine hnode.trans ?_
  rw [h _ rest fuel [] rfl (Nat.le_of_succ_le_succ hfuel)]
  rfl

/-! ## Documents -/

/-- A mapping in a block is a document without names. -/
theorem ofTokens?_map {pairs : List (Node × Node)} (h : ArePairs tokens pairs) :
    Document.ofTokens? (⟨.blockMap, l⟩ :: (tokens ++ [⟨.finish, m⟩])) =
      some (some { root := .map l none pairs }) := by
  have hroot : readNode (8 * (⟨.blockMap, l⟩ :: (tokens ++ [⟨.finish, m⟩])).length + 8) true false
      { tokens := ⟨.blockMap, l⟩ :: (tokens ++ [⟨.finish, m⟩]), handles := standardHandles } =
        some (.map l none pairs, { tokens := [⟨.finish, m⟩], handles := standardHandles }) := by
    refine (isNode_map h).read _ [⟨.finish, m⟩] _ false rfl ?_
    simp
    omega
  rw [Document.ofTokens?]
  show (Reading.root _).bind _ = _
  rw [Reading.root]
  show ((readNode _ true false _).bind _).bind _ = _
  rw [hroot]
  rfl

end StackLang.Yaml

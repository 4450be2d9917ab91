import Mathlib.Data.List.Forall2
import StackLang.Load
import StackLang.Proofs.Lint.Linked
import StackLang.Proofs.Literal
import StackLang.Proofs.Tokens

/-!
# The words of the language

A vocabulary knows its own words and the integer literals.  A text is loaded only if its vocabulary
knows all tokens, and otherwise the one that stands first among the unknown ones is reported,
whatever the blocks look like (`load_eq_unknownWord_iff`).  A program that is loaded has one
instruction for each token, which is what the token means (`means_of_load`).
-/

set_option autoImplicit false

namespace StackLang

open Token (Before IsToken mem_scan_iff scan)

variable {v : Vocabulary} {t u : Token} {i : Instr}

/-! ## Single words -/

namespace Vocabulary

/-- The text is a word of the vocabulary, or writes an integer of 64 bits. -/
def Knows (v : Vocabulary) (text : String) : Prop :=
  (∃ op, (text, op) ∈ v.words) ∨
    ∃ n : Int, Literal.Writes text.toList n ∧ -0x8000000000000000 ≤ n ∧ n ≤ 0x7FFFFFFFFFFFFFFF

/-- The instruction has the operation of the word, or pushes the integer that is written. -/
def Means (v : Vocabulary) (text : String) (i : Instr) : Prop :=
  (text, i.op) ∈ v.words ∨
    (∀ op, (text, op) ∉ v.words) ∧ i.op = .push ∧ Literal.Writes text.toList i.imm.toInt

theorem mem_of_find? {text : String} {op : Op} (h : v.find? text = some op) :
    (text, op) ∈ v.words := by
  obtain ⟨⟨word, _⟩, hfind, rfl⟩ := Option.map_eq_some_iff.1 h
  have hword : word = text := by simpa using List.find?_some hfind
  exact hword ▸ List.mem_of_find?_eq_some hfind

theorem find?_eq_none_iff {text : String} : v.find? text = none ↔ ∀ op, (text, op) ∉ v.words := by
  rw [find?, Option.map_eq_none_iff, List.find?_eq_none]
  constructor
  · exact fun h op hmem => h _ hmem (by simp)
  · rintro h ⟨word, op⟩ hmem hword
    have hword : word = text := by simpa using hword
    exact h op (hword ▸ hmem)

end Vocabulary

theorem Literal.exists_read?_iff {cs : List Char} :
    (∃ x, read? cs = some x) ↔
      ∃ n : Int, Writes cs n ∧ -0x8000000000000000 ≤ n ∧ n ≤ 0x7FFFFFFFFFFFFFFF := by
  simp only [read?_eq_some_iff]
  constructor
  · rintro ⟨x, hx⟩
    have hfits := fits_toInt x
    simp only [fits, Bool.and_eq_true, decide_eq_true_eq] at hfits
    exact ⟨x.toInt, hx, by omega, by omega⟩
  · rintro ⟨n, hn, hge, hle⟩
    have hfits : fits n = true := by
      simp only [fits, Bool.and_eq_true, decide_eq_true_eq]
      omega
    obtain ⟨x, rfl⟩ := fits_iff.1 hfits
    exact ⟨x, hn⟩

namespace Instr

theorem means_of_ofToken (h : ofToken v t = .ok i) : v.Means t.text i := by
  rw [ofToken] at h
  split at h
  · rename_i op hop
    cases h
    exact .inl (Vocabulary.mem_of_find? hop)
  · rename_i hnone
    split at h
    · rename_i n hn
      cases h
      exact .inr ⟨Vocabulary.find?_eq_none_iff.1 hnone, rfl, Literal.read?_eq_some_iff.1 hn⟩
    · cases h

theorem ofToken_eq_error_iff {e : UnknownWord} :
    ofToken v t = .error e ↔ ¬ v.Knows t.text ∧ e = ⟨t⟩ := by
  rw [Vocabulary.Knows, ← Literal.exists_read?_iff, not_or, ofToken]
  split
  · rename_i op hop
    simp only [reduceCtorEq, false_iff]
    exact fun h => h.1.1 ⟨op, Vocabulary.mem_of_find? hop⟩
  · rename_i hnone
    rw [Vocabulary.find?_eq_none_iff] at hnone
    split
    · rename_i n hn
      simp only [reduceCtorEq, false_iff]
      exact fun h => h.1.2 ⟨n, hn⟩
    · rename_i hread
      have hunread : ¬ ∃ x, Literal.read? t.text.toList = some x := by
        rintro ⟨x, hx⟩
        cases hread.symm.trans hx
      simp only [Except.error.injEq, hnone, exists_false, not_false_eq_true, hunread, true_and,
        eq_comm (a := e)]

/-- The instructions of known tokens are those that the tokens mean. -/
theorem mapM_ofToken_ok {tokens : List Token} (h : ∀ t ∈ tokens, v.Knows t.text) :
    ∃ code, tokens.mapM (ofToken v) = .ok code ∧
      List.Forall₂ (fun t i => v.Means t.text i) tokens code := by
  induction tokens with
  | nil => exact ⟨[], rfl, .nil⟩
  | cons t tokens ih =>
    obtain ⟨ht, htokens⟩ := List.forall_mem_cons.1 h
    obtain ⟨code, hcode, hmeans⟩ := ih htokens
    cases hi : ofToken v t with
    | error e => exact absurd ht (ofToken_eq_error_iff.1 hi).1
    | ok i =>
      refine ⟨i :: code, ?_, .cons (means_of_ofToken hi) hmeans⟩
      rw [List.mapM_cons, hi, hcode]
      rfl

/-- The first token that is not known is the one that is reported. -/
theorem mapM_ofToken_error {pre rest : List Token} (hpre : ∀ u ∈ pre, v.Knows u.text)
    (ht : ¬ v.Knows t.text) : (pre ++ t :: rest).mapM (ofToken v) = .error ⟨t⟩ := by
  have herr : ofToken v t = .error ⟨t⟩ := ofToken_eq_error_iff.2 ⟨ht, rfl⟩
  induction pre with
  | nil =>
    rw [List.nil_append, List.mapM_cons, herr]
    rfl
  | cons u pre ih =>
    obtain ⟨hu, hpre⟩ := List.forall_mem_cons.1 hpre
    cases hi : ofToken v u with
    | error e => exact absurd hu (ofToken_eq_error_iff.1 hi).1
    | ok i =>
      rw [List.cons_append, List.mapM_cons, hi, ih hpre]
      rfl

end Instr

/-! ## Whole texts -/

namespace Token

variable {tokens : List Token}

theorem Before.asymm (h : Before t u) : ¬ Before u t := by
  rw [Before] at h ⊢
  omega

/-- In a list in order, what stands in front of a token is what comes before it. -/
theorem mem_front_of_before {pre rest : List Token}
    (h : (pre ++ t :: rest).Pairwise Before) (hu : u ∈ pre ++ t :: rest) (hut : Before u t) :
    u ∈ pre := by
  rcases List.mem_append.1 hu with hu | hu
  · exact hu
  · rcases List.mem_cons.1 hu with rfl | hu
    · exact absurd hut hut.asymm
    · have htu : Before t u := (List.pairwise_cons.1 (List.pairwise_append.1 h).2.1).1 u hu
      exact absurd hut htu.asymm

theorem before_of_mem_front {pre rest : List Token}
    (h : (pre ++ t :: rest).Pairwise Before) (hu : u ∈ pre) : Before u t :=
  (List.pairwise_append.1 h).2.2 u hu t List.mem_cons_self

end Token

namespace Program

variable {file : String} {octets : List UInt8} {p q : Program}

theorem ofTokensLinked_error {tokens : List Token} {e : UnknownWord}
    (h : tokens.mapM (Instr.ofToken v) = .error e) :
    ofTokensLinked file v tokens = .error (.unknownWord e) := by
  rw [ofTokensLinked, ofTokens, h]
  rfl

/-- Tokens that are known make a program that is linked. -/
theorem ofTokensLinked_ok {tokens : List Token} {code : List Instr}
    (h : tokens.mapM (Instr.ofToken v) = .ok code) :
    ofTokensLinked file v tokens =
      match link { source := file, code := code.toArray } with
      | (p, none) => .ok p
      | (_, some e) => .error (.under file (linkError e)) := by
  rw [ofTokensLinked, ofTokens, h]
  rfl

theorem load_known (h : ∀ t, IsToken file octets t → v.Knows t.text) :
    ∃ code : List Instr, List.Forall₂ (fun t i => v.Means t.text i) (scan file octets) code ∧
      load file v octets =
        match link { source := file, code := code.toArray } with
        | (p, none) => .ok p
        | (_, some e) => .error (.under file (linkError e)) := by
  obtain ⟨code, hcode, hmeans⟩ :=
    Instr.mapM_ofToken_ok fun t ht => h t (Token.mem_scan_iff.1 ht)
  exact ⟨code, hmeans, ofTokensLinked_ok hcode⟩

theorem load_unknown (ht : IsToken file octets t) (hunknown : ¬ v.Knows t.text)
    (hfirst : ∀ u, IsToken file octets u → Before u t → v.Knows u.text) :
    load file v octets = .error (.unknownWord ⟨t⟩) := by
  obtain ⟨pre, rest, hsplit⟩ := List.append_of_mem (Token.mem_scan_iff.2 ht)
  have horder := Token.pairwise_scan file octets
  rw [hsplit] at horder
  refine ofTokensLinked_error ?_
  rw [hsplit]
  refine Instr.mapM_ofToken_error (fun u hu => ?_) hunknown
  refine hfirst u (Token.mem_scan_iff.1 ?_) (Token.before_of_mem_front horder hu)
  rw [hsplit]
  exact List.mem_append_left _ hu

/-- If some token is not known, one of them stands in front of the others. -/
theorem exists_first_unknown (h : ∃ t, IsToken file octets t ∧ ¬ v.Knows t.text) :
    ∃ t, IsToken file octets t ∧ ¬ v.Knows t.text ∧
      ∀ u, IsToken file octets u → Before u t → v.Knows u.text := by
  classical
  obtain ⟨t, ht, hunknown⟩ := h
  have hsome : ((scan file octets).find? fun t => decide (¬ v.Knows t.text)).isSome = true :=
    List.find?_isSome.2 ⟨t, Token.mem_scan_iff.2 ht, decide_eq_true hunknown⟩
  obtain ⟨t, hfind⟩ := Option.isSome_iff_exists.1 hsome
  obtain ⟨hunknown, pre, rest, hsplit, hpre⟩ := List.find?_eq_some_iff_append.1 hfind
  have horder := Token.pairwise_scan file octets
  refine ⟨t, Token.mem_scan_iff.1 (List.mem_of_find?_eq_some hfind), by simpa using hunknown,
    fun u hu hut => ?_⟩
  have hu := Token.mem_scan_iff.2 hu
  rw [hsplit] at hu horder
  simpa using hpre u (Token.mem_front_of_before horder hu hut)

theorem load_ne_unknownWord (h : ∀ t, IsToken file octets t → v.Knows t.text) (e : UnknownWord) :
    load file v octets ≠ .error (.unknownWord e) := by
  obtain ⟨code, -, hload⟩ := load_known h
  rw [hload]
  split
  · exact nofun
  · rename_i reason _
    cases reason <;> exact nofun

/-- **The first token that is not known is reported**, and nothing else is reported as unknown. -/
theorem load_eq_unknownWord_iff :
    load file v octets = .error (.unknownWord ⟨t⟩) ↔
      IsToken file octets t ∧ ¬ v.Knows t.text ∧
        ∀ u, IsToken file octets u → Before u t → v.Knows u.text := by
  constructor
  · intro h
    have hex : ∃ t, IsToken file octets t ∧ ¬ v.Knows t.text := by
      by_contra hall
      refine load_ne_unknownWord (fun t ht => ?_) _ h
      by_contra hunknown
      exact hall ⟨t, ht, hunknown⟩
    obtain ⟨u, hu⟩ := exists_first_unknown hex
    cases h.symm.trans (load_unknown hu.1 hu.2.1 hu.2.2)
    exact hu
  · exact fun h => load_unknown h.1 h.2.1 h.2.2

/-- Linking changes nothing but the immediates of jumps. -/
theorem keeps_of_link (h : p.link = (q, none)) :
    List.Forall₂ (fun i j : Instr => j.op = i.op ∧ (i.op.isJump = false → j = i))
      p.code.toList q.code.toList := by
  obtain ⟨b, hops, rfl⟩ := exists_of_link h
  refine List.forall₂_iff_get.2 ⟨by simp, fun k hk hk' => ?_⟩
  have hi : p.code[k]? = some (p.code.toList.get ⟨k, hk⟩) := Array.getElem?_eq_getElem hk
  have hj : (Instr.aimAll p.code (b.targets 0))[k]? =
      some ((Instr.aimAll p.code (b.targets 0)).toList.get ⟨k, hk'⟩) :=
    Array.getElem?_eq_getElem hk'
  constructor
  · rw [Instr.getElem?_aimAll, hi] at hj
    rw [← Option.some.inj hj, Instr.aim_op]
  · intro hjump
    exact Option.some.inj (hj.symm.trans (aimAll_not_jump hops hi hjump))

theorem means_of_keeps {text : String} {j : Instr} (h : v.Means text i)
    (hkeep : j.op = i.op ∧ (i.op.isJump = false → j = i)) : v.Means text j := by
  rcases h with h | ⟨hnone, hpush, hwrites⟩
  · exact .inl (hkeep.1 ▸ h)
  · rw [hkeep.2 (by rw [hpush]; rfl)]
    exact .inr ⟨hnone, hpush, hwrites⟩

theorem means_of_link {tokens : List Token}
    (h : List.Forall₂ (fun t i => v.Means t.text i) tokens p.code.toList)
    (hlink : p.link = (q, none)) :
    List.Forall₂ (fun t i => v.Means t.text i) tokens q.code.toList := by
  have hkeep := keeps_of_link hlink
  generalize p.code.toList = code at h hkeep
  generalize q.code.toList = code' at hkeep
  induction h generalizing code' with
  | nil => cases hkeep; exact .nil
  | cons hmeans _ ih =>
    cases hkeep with
    | cons hfirst hrest => exact .cons (means_of_keeps hmeans hfirst) (ih _ hrest)

/-- **The instructions of a program that is loaded are what its tokens mean.** -/
theorem means_of_load (h : load file v octets = .ok q) :
    q.source = file ∧
      List.Forall₂ (fun t i => v.Means t.text i) (scan file octets) q.code.toList := by
  have hknown : ∀ t, IsToken file octets t → v.Knows t.text := by
    by_contra hall
    push Not at hall
    obtain ⟨t, ht, hunknown, hfirst⟩ := exists_first_unknown hall
    cases h.symm.trans (load_unknown ht hunknown hfirst)
  obtain ⟨code, hmeans, hload⟩ := load_known hknown
  rw [hload] at h
  split at h
  · rename_i p hlink
    cases h
    obtain ⟨b, -, hq⟩ := exists_of_link hlink
    exact ⟨by rw [hq], means_of_link hmeans hlink⟩
  · cases h

/-- **Loading accepts the words of the language and nothing else.**  A text is refused for a word
exactly if a token is neither a word of the vocabulary nor an integer of 64 bits; what is then
reported is the first such token, whatever the blocks look like.  If there is none, the tokens mean
one instruction each, and these are linked. -/
theorem load_exact (file : String) (duplIsDump : Bool) (octets : List UInt8) :
    ((∃ e, load file (.choose duplIsDump) octets = .error (.unknownWord e)) ↔
      ∃ t, IsToken file octets t ∧ ¬ (Vocabulary.choose duplIsDump).Knows t.text) ∧
    (∀ t, load file (.choose duplIsDump) octets = .error (.unknownWord ⟨t⟩) ↔
      IsToken file octets t ∧ ¬ (Vocabulary.choose duplIsDump).Knows t.text ∧
        ∀ u, IsToken file octets u → Before u t → (Vocabulary.choose duplIsDump).Knows u.text) ∧
    ((∀ t, IsToken file octets t → (Vocabulary.choose duplIsDump).Knows t.text) →
      ∃ code : List Instr,
        List.Forall₂ (fun t i => (Vocabulary.choose duplIsDump).Means t.text i)
          (scan file octets) code ∧
        load file (.choose duplIsDump) octets =
          match link { source := file, code := code.toArray } with
          | (p, none) => .ok p
          | (_, some e) => .error (.under file (linkError e))) ∧
    ∀ p, load file (.choose duplIsDump) octets = .ok p → p.source = file ∧
      List.Forall₂ (fun t i => (Vocabulary.choose duplIsDump).Means t.text i)
        (scan file octets) p.code.toList := by
  refine ⟨⟨?_, ?_⟩, fun t => load_eq_unknownWord_iff, load_known, fun p => means_of_load⟩
  · rintro ⟨e, he⟩
    obtain ⟨ht, hunknown, -⟩ := load_eq_unknownWord_iff.1 he
    exact ⟨e.token, ht, hunknown⟩
  · intro hex
    obtain ⟨t, ht, hunknown, hfirst⟩ := exists_first_unknown hex
    exact ⟨⟨t⟩, load_unknown ht hunknown hfirst⟩

/-- In `END 1x` the second token is reported, although the first one closes nothing; `IF +08 END`
is loaded with one instruction for each of its three tokens. -/
theorem load_exact_literals :
    load "f" (.choose false) [0x45, 0x4E, 0x44, 0x20, 0x31, 0x78] =
        .error (.unknownWord ⟨⟨"f", 1, 5, "1x"⟩⟩) ∧
      ∃ p, load "f" (.choose false) [0x49, 0x46, 0x20, 0x2B, 0x30, 0x38, 0x20, 0x45, 0x4E, 0x44] =
          .ok p ∧ p.source = "f" ∧
        List.Forall₂ (fun (t : Token) i => (Vocabulary.choose false).Means t.text i)
          [⟨"f", 1, 1, "IF"⟩, ⟨"f", 1, 4, "+08"⟩, ⟨"f", 1, 8, "END"⟩] p.code.toList := by
  have hscan : scan "f" [0x45, 0x4E, 0x44, 0x20, 0x31, 0x78] =
      [⟨"f", 1, 1, "END"⟩, ⟨"f", 1, 5, "1x"⟩] := by decide +kernel
  have hread : scan "f" [0x49, 0x46, 0x20, 0x2B, 0x30, 0x38, 0x20, 0x45, 0x4E, 0x44] =
      [⟨"f", 1, 1, "IF"⟩, ⟨"f", 1, 4, "+08"⟩, ⟨"f", 1, 8, "END"⟩] := by decide +kernel
  have hend : (Vocabulary.choose false).Knows "END" := .inl ⟨.close, by decide⟩
  have hbad : ¬ (Vocabulary.choose false).Knows "1x" := by
    rintro (⟨op, hword⟩ | hliteral)
    · exact Vocabulary.find?_eq_none_iff.1 (by decide) op hword
    · obtain ⟨x, hx⟩ := Literal.exists_read?_iff.2 hliteral
      have hnone : Literal.read? "1x".toList = none := by decide +kernel
      cases hnone.symm.trans hx
  obtain ⟨p, hp⟩ : ∃ p, load "f" (.choose false)
      [0x49, 0x46, 0x20, 0x2B, 0x30, 0x38, 0x20, 0x45, 0x4E, 0x44] = .ok p := by
    rw [load, hread]
    exact ⟨_, rfl⟩
  have hloaded := (load_exact "f" false _).2.2.2 p hp
  rw [hread] at hloaded
  have hunknown := (load_exact "f" false [0x45, 0x4E, 0x44, 0x20, 0x31, 0x78]).2.1
  refine ⟨(hunknown _).2 ⟨mem_scan_iff.1 (by simp [hscan]), hbad, ?_⟩, p, hp, hloaded⟩
  intro u hu hbefore
  rw [← mem_scan_iff, hscan] at hu
  obtain rfl | rfl : u = ⟨"f", 1, 1, "END"⟩ ∨ u = ⟨"f", 1, 5, "1x"⟩ := by simpa using hu
  · exact hend
  · exact absurd hbefore hbefore.asymm

end Program

end StackLang

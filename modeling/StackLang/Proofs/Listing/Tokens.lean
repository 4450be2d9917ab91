import StackLang.Listing
import StackLang.Proofs.Yaml.Integer

/-!
# The tokens of a listing

The document that is written for a program is scanned as a mapping of its source, its state and its
instructions, each of them a mapping again (`exists_scan_documentChars`).
-/

set_option autoImplicit false

namespace StackLang.Listing

open Yaml Scanner

variable {cs rest written text : List Char} {s : String} {quoted : Bool} {k : Nat}

/-! ## Pairs -/

/-- A scalar that is written on one line, with its line end, wherever it is the value of a key. -/
structure Shows (written : List Char) (quoted : Bool) (text : List Char) : Prop where
  atToken : ∀ rest, AtToken (written ++ rest)
  reaches : ∀ {p : Place} {block : Nat} {blocks : List Nat} {k : Nat} {rest : List Char},
    p.keyOk = false → p.blocks = block :: blocks → block < p.col →
      p.rest = written ++ (List.replicate k ' ' ++ rest) → k ≤ block → AtToken rest →
        Reaches p (p.afterScalar quoted text rest (p.line + 1) k)

theorem shows_plain (h : IsPlain cs) : Shows (cs ++ ['\n']) false cs := by
  refine ⟨fun rest => ?_, fun {p block blocks k rest} hkey hblocks hcol heq hk hrest => ?_⟩
  · rw [List.append_assoc]
    exact h.atToken _
  · rw [List.append_assoc, List.singleton_append] at heq
    exact reaches_plain hkey hblocks hcol heq h hk hrest

theorem shows_value (h : Printer.style s = .plain ∨ Printer.style s = .double) :
    Shows (Printer.value s).toList (Printer.style s != .plain) s.toList :=
  ⟨atToken_value s, fun hkey hblocks hcol heq hk hrest =>
    reaches_value h hkey hblocks hcol heq hk hrest⟩

/-- The tokens of a key and its value. -/
def pairLexemes (line : Nat) (key : List Char) (quoted : Bool) (value : List Char) : List Lexeme :=
  [⟨.key, line⟩, ⟨.scalar false (String.ofList key), line⟩, ⟨.value, line⟩,
    ⟨.scalar quoted (String.ofList value), line⟩]

theorem rolled_eq_cons (blocks : List Nat) (col : Nat) : ∃ bs, rolled blocks col = col :: bs := by
  rw [rolled]
  split
  · rename_i h
    cases blocks with
    | nil => cases h
    | cons b blocks => cases h; exact ⟨blocks, rfl⟩
  · exact ⟨blocks, rfl⟩

/-- The place behind a pair on one line. -/
def afterPair (p : Place) (key : List Char) (quoted : Bool) (value rest : List Char) (col : Nat) :
    Place :=
  { tokens := (pairLexemes p.line key quoted value).reverse ++
      (opening p.blocks p.col .blockMap p.line ++ p.tokens),
    blocks := rolled p.blocks p.col, keyOk := true, rest, line := p.line + 1, col }

theorem reaches_pair {p : Place} {word : List Char} (hkey : p.keyOk = true)
    (hblocks : ∀ b ∈ p.blocks.head?, b ≤ p.col) (hdepth : p.blocks.length < depthLimit)
    (heq : p.rest = word ++ ':' :: ' ' :: (written ++ (List.replicate k ' ' ++ rest)))
    (hword : IsWord word) (hlength : word.length ≤ keyReach) (hshows : Shows written quoted text)
    (hk : k ≤ p.col) (hrest : AtToken rest) :
    Reaches p (afterPair p word quoted text rest k) := by
  obtain ⟨bs, hrolled⟩ := rolled_eq_cons p.blocks p.col
  refine (reaches_key_value hkey hblocks hdepth heq hword hlength (hshows.atToken _)).trans ?_
  exact hshows.reaches rfl hrolled (by simp [Place.afterKey]; omega) rfl hk hrest

/-! ## Entries -/

theorem style_name {op : Op} (h : op.isDefined = true) :
    Printer.style op.name = .plain ∨ Printer.style op.name = .double := by
  cases op <;> first | decide +kernel | cases h

/-- The text of an entry behind its indentation, and what follows it. -/
def entryChars (addr : Nat) (i : Instr) (rest : List Char) : List Char :=
  '-' :: ' ' :: ("addr".toList ++ ':' :: ' ' :: ((toString addr).toList ++ ['\n'] ++
    (List.replicate 4 ' ' ++ ("op".toList ++ ':' :: ' ' :: ((Printer.value i.op.name).toList ++
      (List.replicate 4 ' ' ++ ("imm".toList ++ ':' :: ' ' :: ((toString i.imm).toList ++ ['\n'] ++
        rest))))))))

theorem toList_yamlEntry (addr : Nat) (i : Instr) (rest : List Char) :
    (yamlEntry addr i).toList ++ rest = List.replicate 2 ' ' ++ entryChars addr i rest := by
  delta yamlEntry entryChars
  repeat rw [String.toList_append]
  repeat rw [List.append_assoc]
  rfl

/-- The text of entries. -/
def entriesChars (addr : Nat) (is : List Instr) : List Char :=
  (String.join (yamlEntries addr is)).toList

theorem entriesChars_nil (addr : Nat) : entriesChars addr [] = List.replicate 0 ' ' ++ [] := rfl

theorem entriesChars_cons (addr : Nat) (i : Instr) (is : List Instr) :
    entriesChars addr (i :: is) =
      List.replicate 2 ' ' ++ entryChars addr i (entriesChars (addr + 1) is) := by
  rw [← toList_yamlEntry, entriesChars, yamlEntries, String.join_cons, String.toList_append]
  rfl

/-- The tokens of an entry, up to the end of its mapping. -/
def entryLexemes (line addr : Nat) (i : Instr) : List Lexeme :=
  ⟨.item, line⟩ :: ⟨.blockMap, line⟩ ::
    (pairLexemes line "addr".toList false (toString addr).toList ++
      (pairLexemes (line + 1) "op".toList (Printer.style i.op.name != .plain) i.op.name.toList ++
        pairLexemes (line + 2) "imm".toList false (toString i.imm).toList))

theorem reverse_entryLexemes (line addr : Nat) (i : Instr) (tokens : List Lexeme) :
    (entryLexemes line addr i).reverse ++ tokens =
      (pairLexemes (line + 2) "imm".toList false (toString i.imm).toList).reverse ++
        ((pairLexemes (line + 1) "op".toList (Printer.style i.op.name != .plain)
          i.op.name.toList).reverse ++
          ((pairLexemes line "addr".toList false (toString addr).toList).reverse ++
            ⟨.blockMap, line⟩ :: ⟨.item, line⟩ :: tokens)) := by
  rw [entryLexemes, List.reverse_cons, List.reverse_cons, List.reverse_append, List.reverse_append]
  repeat rw [List.append_assoc]
  rfl

theorem isWord_addr : IsWord "addr".toList := ⟨by decide, List.all_eq_true.1 rfl⟩
theorem isWord_op : IsWord "op".toList := ⟨by decide, List.all_eq_true.1 rfl⟩
theorem isWord_imm : IsWord "imm".toList := ⟨by decide, List.all_eq_true.1 rfl⟩

/-- An entry takes the scanner to the line behind it, in the column of the next token. -/
theorem reaches_entry {tokens : List Lexeme} {shut blocks : List Nat} {addr line : Nat} {i : Instr}
    (hi : i.op.isDefined = true) (hshut : ∀ b ∈ shut, 2 < b)
    (hblocks : ∀ b ∈ blocks.head?, b ≤ 2) (hdepth : blocks.length < depthLimit)
    (hrolled : rolled blocks 2 = [2, 0]) (hk : k ≤ 4) (hrest : AtToken rest) :
    Reaches
      ⟨tokens, shut ++ blocks, true, entryChars addr i (List.replicate k ' ' ++ rest), line, 2⟩
      ⟨(entryLexemes line addr i).reverse ++ (opening blocks 2 .blockSeq line ++
        (List.replicate shut.length ⟨.blockEnd, line⟩ ++ tokens)), [4, 2, 0], true, rest, line + 3,
        k⟩ := by
  have hop := shows_value (style_name hi)
  have haddr := shows_plain (isPlain_toString addr)
  have himm := shows_plain (isPlain_toString i.imm.toInt)
  rw [reverse_entryLexemes]
  refine (reaches_item rfl rfl hshut hblocks hdepth (Nat.succ_ne_zero 1) rfl
    (isWord_addr.atToken _)).trans ?_
  show Reaches ⟨_, rolled blocks 2, _, _, _, _⟩ _
  rw [hrolled]
  have houter : ∀ b ∈ [2, 0].head?, b ≤ 4 := by decide
  have hinner : ∀ b ∈ [4, 2, 0].head?, b ≤ 4 := by decide
  have hlimit : [4, 2, 0].length < depthLimit := by decide
  refine (reaches_pair rfl houter (show [2, 0].length < depthLimit by decide) rfl isWord_addr
    (by decide) haddr (Nat.le_refl 4) (isWord_op.atToken _)).trans ?_
  refine (reaches_pair rfl hinner hlimit rfl isWord_op (by decide) hop (Nat.le_refl 4)
    (isWord_imm.atToken _)).trans ?_
  exact reaches_pair rfl hinner hlimit rfl isWord_imm (by decide) himm hk hrest

/-- The tokens of entries, each with the end of its mapping. -/
def entriesLexemes (line addr : Nat) : List Instr → List Lexeme
  | [] => []
  | i :: is => entryLexemes line addr i ++ ⟨.blockEnd, line + 3⟩ ::
      entriesLexemes (line + 3) (addr + 1) is

theorem atToken_entryChars (addr : Nat) (i : Instr) (rest : List Char) :
    AtToken (entryChars addr i rest) := by
  rintro c hc
  cases hc
  decide

/-- Entries take the scanner to the end of the text, where the mapping of the last one is still
open. -/
theorem reaches_entries {is : List Instr} {i : Instr} {tokens : List Lexeme}
    {shut blocks : List Nat} {addr line : Nat} (hi : ∀ j ∈ i :: is, j.op.isDefined = true)
    (hshut : ∀ b ∈ shut, 2 < b) (hblocks : ∀ b ∈ blocks.head?, b ≤ 2)
    (hdepth : blocks.length < depthLimit) (hrolled : rolled blocks 2 = [2, 0]) :
    ∃ tokens',
      Reaches
        ⟨tokens, shut ++ blocks, true, entryChars addr i (entriesChars (addr + 1) is), line, 2⟩
        ⟨tokens', [4, 2, 0], true, [], line + 3 * (i :: is).length, 0⟩ ∧
      ⟨.blockEnd, line + 3 * (i :: is).length⟩ :: tokens' =
        (entriesLexemes line addr (i :: is)).reverse ++ (opening blocks 2 .blockSeq line ++
          (List.replicate shut.length ⟨.blockEnd, line⟩ ++ tokens)) := by
  induction is generalizing i tokens shut blocks addr line with
  | nil =>
    obtain ⟨hi, -⟩ := List.forall_mem_cons.1 hi
    have hlast := @reaches_entry [] 0 tokens shut blocks addr line i hi hshut hblocks hdepth hrolled
      (by decide) (by simp [AtToken])
    rw [← entriesChars_nil (addr + 1)] at hlast
    refine ⟨_, hlast, ?_⟩
    rw [entriesLexemes, entriesLexemes, List.reverse_append]
    rfl
  | cons j is ih =>
    obtain ⟨hi, his⟩ := List.forall_mem_cons.1 hi
    have hfirst := @reaches_entry _ 2 tokens shut blocks addr line i hi hshut hblocks hdepth hrolled
      (by decide) (atToken_entryChars (addr + 1) j (entriesChars (addr + 1 + 1) is))
    rw [← entriesChars_cons] at hfirst
    obtain ⟨tokens', hlast, htokens⟩ := @ih j _ [4] [2, 0] (addr + 1) (line + 3) his (by decide)
      (by decide) (by decide) rfl
    have hlength : line + 3 + 3 * (j :: is).length = line + 3 * (i :: j :: is).length := by
      rw [List.length_cons (a := i)]
      omega
    rw [hlength] at hlast htokens
    have hreverse : (entriesLexemes line addr (i :: j :: is)).reverse =
        (entriesLexemes (line + 3) (addr + 1) (j :: is)).reverse ++
          ⟨.blockEnd, line + 3⟩ :: (entryLexemes line addr i).reverse := by
      rw [entriesLexemes, List.reverse_append, List.reverse_cons, List.append_assoc]
      rfl
    refine ⟨tokens', hfirst.trans hlast, ?_⟩
    rw [htokens, hreverse, List.append_assoc]
    rfl

/-! ## Documents -/

/-- The tokens of the instructions with their key. -/
def instructionsLexemes (line : Nat) (is : List Instr) : List Lexeme :=
  ⟨.key, line⟩ :: ⟨.scalar false "instructions", line⟩ :: ⟨.value, line⟩ ::
    match is with
    | [] => [⟨.flowSeq, line⟩, ⟨.flowSeqEnd, line⟩]
    | i :: is => ⟨.blockSeq, line + 1⟩ :: (entriesLexemes (line + 1) 0 (i :: is) ++
        [⟨.blockEnd, line + 1 + 3 * (i :: is).length⟩])

/-- The text of the instructions with their key. -/
def instructionsChars (is : List Instr) : List Char :=
  "instructions".toList ++ ':' ::
    match is with
    | [] => ' ' :: '[' :: ']' :: '\n' :: (List.replicate 0 ' ' ++ [])
    | i :: is => '\n' :: (List.replicate 2 ' ' ++ entryChars 0 i (entriesChars 1 is))

theorem isWord_instructions : IsWord "instructions".toList := ⟨by decide, List.all_eq_true.1 rfl⟩
theorem isWord_resolved : IsWord "resolved".toList := ⟨by decide, List.all_eq_true.1 rfl⟩
theorem isWord_source : IsWord "source".toList := ⟨by decide, List.all_eq_true.1 rfl⟩

theorem reads_instructions {is : List Instr} (hi : ∀ i ∈ is, i.op.isDefined = true)
    (tokens : List Lexeme) (line : Nat) :
    Place.Reads ⟨tokens, [0], true, instructionsChars is, line, 0⟩
      (tokens.reverse ++ (instructionsLexemes line is ++
        [⟨.blockEnd, line + 1 + 3 * is.length⟩, ⟨.finish, line + 1 + 3 * is.length⟩])) := by
  have hblocks : ∀ b ∈ [0].head?, b ≤ 0 := by decide
  have hdepth : [0].length < depthLimit := by decide
  cases is with
  | nil =>
    have hbrackets : AtToken ('[' :: ']' :: '\n' :: (List.replicate 0 ' ' ++ [])) := by
      rintro c hc
      cases hc
      decide
    refine Reaches.reads (reaches_key_value rfl hblocks hdepth rfl isWord_instructions (by decide)
      hbrackets) ?_
    refine Reaches.reads (reaches_brackets rfl ?_ (Nat.succ_ne_zero _) rfl (List.cons_ne_nil _ _)
      (by simp [AtToken])) ?_
    · rintro b hb
      cases hb
      exact Nat.zero_le _
    · refine reads_end rfl (List.nil_append [0]).symm (List.forall_mem_nil _) hblocks ?_
      simp [Place.afterBrackets, Place.afterKey, opening, instructionsLexemes]
  | cons i is =>
    refine Reaches.reads (reaches_key_line rfl hblocks hdepth rfl isWord_instructions (by decide)
      (atToken_entryChars 0 i _)) ?_
    obtain ⟨tokens', hreaches, htokens⟩ := @reaches_entries is i _ [] [0] 0 (line + 1) hi
      (by decide) (by decide) (by decide) rfl
    refine Reaches.reads hreaches ?_
    have hshut : ∀ b ∈ [4, 2], 0 < b := by decide
    refine reads_end rfl (show [4, 2, 0] = [4, 2] ++ [0] from rfl) hshut hblocks ?_
    show (_ :: _ :: _ :: (⟨.blockEnd, line + 1 + 3 * (i :: is).length⟩ :: tokens')).reverse = _
    rw [htokens]
    simp [opening, instructionsLexemes]

/-- A truth value as it is written. -/
def stateText (linked : Bool) : String := if linked then "true" else "false"

theorem isPlain_stateText (linked : Bool) : IsPlain (stateText linked).toList := by
  cases linked <;>
    exact ⟨by decide, by simp [stateText, isBreak], by simp [stateText], by decide, by decide,
      by decide⟩

/-- The text of the state of a program and its instructions. -/
def stateAndInstructionsChars (linked : Bool) (is : List Instr) : List Char :=
  "resolved".toList ++ ':' :: ' ' :: ((stateText linked).toList ++ ['\n'] ++
    (List.replicate 0 ' ' ++ instructionsChars is))

/-- The tokens of the state of a program and its instructions, up to the end of the document. -/
def stateAndInstructionsLexemes (line : Nat) (linked : Bool) (is : List Instr) : List Lexeme :=
  pairLexemes line "resolved".toList false (stateText linked).toList ++
    (instructionsLexemes (line + 1) is ++
      [⟨.blockEnd, line + 1 + 1 + 3 * is.length⟩, ⟨.finish, line + 1 + 1 + 3 * is.length⟩])

theorem reads_stateAndInstructions {is : List Instr} (hi : ∀ i ∈ is, i.op.isDefined = true)
    {blocks : List Nat} (hblocks : blocks = [] ∨ blocks = [0]) (tokens : List Lexeme) (line : Nat)
    (linked : Bool) :
    Place.Reads ⟨tokens, blocks, true, stateAndInstructionsChars linked is, line, 0⟩
      (tokens.reverse ++ (opening blocks 0 .blockMap line ++
        stateAndInstructionsLexemes line linked is)) := by
  have hrolled : rolled blocks 0 = [0] := by rcases hblocks with rfl | rfl <;> rfl
  have hopening : (opening blocks 0 .blockMap line).reverse = opening blocks 0 .blockMap line := by
    rcases hblocks with rfl | rfl <;> rfl
  have hhead : ∀ b ∈ blocks.head?, b ≤ 0 := by rcases hblocks with rfl | rfl <;> decide
  have hdepth : blocks.length < depthLimit := by rcases hblocks with rfl | rfl <;> decide
  refine Reaches.reads (reaches_pair rfl hhead hdepth rfl isWord_resolved (by decide)
    (shows_plain (isPlain_stateText linked)) (Nat.le_refl 0) (isWord_instructions.atToken _)) ?_
  have hreads := reads_instructions hi ((pairLexemes line "resolved".toList false
    (stateText linked).toList).reverse ++ (opening blocks 0 .blockMap line ++ tokens)) (line + 1)
  rw [← hrolled, List.reverse_append, List.reverse_append, List.reverse_reverse, hopening,
    List.append_assoc, List.append_assoc] at hreads
  exact hreads

/-- The text of a document behind nothing or behind the source of the program. -/
def documentChars (p : Program) : List Char :=
  (if p.source = "" then []
    else "source".toList ++ ':' :: ' ' :: (Printer.value p.source).toList) ++
    stateAndInstructionsChars p.linked p.code.toList

/-- The tokens of a document whose state is in line `line`. -/
def documentLexemes (line : Nat) (p : Program) : List Lexeme :=
  ⟨.blockMap, 1⟩ :: ((if p.source = "" then [] else
    pairLexemes 1 "source".toList (Printer.style p.source != .plain) p.source.toList) ++
      stateAndInstructionsLexemes line p.linked p.code.toList)

theorem toList_instructions (is : List Instr) :
    (if is.isEmpty then "instructions: []\n"
      else "instructions:\n" ++ String.join (yamlEntries 0 is)).toList = instructionsChars is := by
  cases is with
  | nil => rfl
  | cons i is =>
    rw [if_neg (by simp), String.toList_append]
    show _ ++ entriesChars 0 (i :: is) = _
    rw [entriesChars_cons]
    rfl

theorem toList_source (source : String) :
    (if source == "" then "" else "source: " ++ Printer.value source).toList =
      if source = "" then []
      else "source".toList ++ ':' :: ' ' :: (Printer.value source).toList := by
  by_cases hempty : source = ""
  · rw [if_pos hempty, if_pos (by simpa using hempty)]
    rfl
  · rw [if_neg hempty, if_neg (by simpa using hempty), String.toList_append]
    rfl

theorem toList_state (linked : Bool) (rest : List Char) :
    ("resolved: " ++ (if linked then "true" else "false") ++ "\n").toList ++ rest =
      "resolved".toList ++ ':' :: ' ' :: ((stateText linked).toList ++ ['\n'] ++
        (List.replicate 0 ' ' ++ rest)) := by
  cases linked <;> rfl

theorem toYaml_eq_ok {p : Program} (h : ∀ i ∈ p.code, i.op.isDefined = true) :
    toYaml p = .ok (String.ofList (documentChars p)) := by
  have hfind : p.code.toList.find? (fun i => !i.op.isDefined) = none := by
    rw [List.find?_eq_none]
    intro i hi
    simp [h i (Array.mem_toList_iff.1 hi)]
  have hcode := toList_instructions p.code.toList
  rw [Array.isEmpty_toList] at hcode
  have hyaml : toYaml p = .ok (
      (if p.source == "" then "" else "source: " ++ Printer.value p.source) ++
      ("resolved: " ++ (if p.linked then "true" else "false") ++ "\n") ++
      (if p.code.isEmpty then "instructions: []\n"
        else "instructions:\n" ++ String.join (yamlEntries 0 p.code.toList))) := by
    delta toYaml
    rw [hfind]
  rw [hyaml]
  refine congrArg Except.ok (String.toList_inj.1 ?_)
  rw [String.toList_ofList, String.toList_append, String.toList_append, toList_source, hcode,
    List.append_assoc, toList_state]
  rfl

theorem isAllowed_key {word : List Char} (hword : IsWord word)
    (h : ∀ c ∈ rest, isAllowed c = true) : ∀ c ∈ word ++ ':' :: rest, isAllowed c = true := by
  refine List.forall_mem_append.2 ⟨fun c hc => ?_, List.forall_mem_cons.2 ⟨rfl, h⟩⟩
  obtain ⟨hle, hge⟩ := toNat_of_isLower (hword.isLower c hc)
  simp only [isAllowed, Bool.or_eq_true, Bool.and_eq_true, decide_eq_true_eq, beq_iff_eq]
  omega

theorem isAllowed_pair {word : List Char} (hword : IsWord word)
    (h : ∀ c ∈ rest, isAllowed c = true) : ∀ c ∈ word ++ ':' :: ' ' :: rest, isAllowed c = true :=
  isAllowed_key hword (List.forall_mem_cons.2 ⟨rfl, h⟩)

theorem isAllowed_spaces (h : ∀ c ∈ rest, isAllowed c = true) (k : Nat) :
    ∀ c ∈ List.replicate k ' ' ++ rest, isAllowed c = true :=
  List.forall_mem_append.2 ⟨fun c hc => by rw [List.eq_of_mem_replicate hc]; rfl, h⟩

theorem isAllowed_line (h : ∀ c ∈ cs, isAllowed c = true) (hrest : ∀ c ∈ rest, isAllowed c = true) :
    ∀ c ∈ cs ++ ['\n'] ++ rest, isAllowed c = true := by
  rw [List.append_assoc]
  exact List.forall_mem_append.2 ⟨h, List.forall_mem_cons.2 ⟨rfl, hrest⟩⟩

theorem isAllowed_entryChars (addr : Nat) (i : Instr) (h : ∀ c ∈ rest, isAllowed c = true) :
    ∀ c ∈ entryChars addr i rest, isAllowed c = true := by
  have himm := isAllowed_pair isWord_imm (isAllowed_line (isAllowed_toString i.imm.toInt) h)
  have hop := isAllowed_pair isWord_op
    (List.forall_mem_append.2 ⟨isAllowed_value i.op.name, isAllowed_spaces himm 4⟩)
  have haddr := isAllowed_pair isWord_addr
    (isAllowed_line (isAllowed_toString addr) (isAllowed_spaces hop 4))
  exact List.forall_mem_cons.2 ⟨rfl, List.forall_mem_cons.2 ⟨rfl, haddr⟩⟩

theorem isAllowed_entriesChars (addr : Nat) (is : List Instr) :
    ∀ c ∈ entriesChars addr is, isAllowed c = true := by
  induction is generalizing addr with
  | nil => exact List.forall_mem_nil _
  | cons i is ih =>
    rw [entriesChars_cons]
    exact isAllowed_spaces (isAllowed_entryChars addr i (ih (addr + 1))) 2

theorem isAllowed_documentChars (p : Program) : ∀ c ∈ documentChars p, isAllowed c = true := by
  have hinstructions : ∀ c ∈ instructionsChars p.code.toList, isAllowed c = true := by
    cases p.code.toList with
    | nil => exact isAllowed_key isWord_instructions (List.all_eq_true.1 rfl)
    | cons i is =>
      exact isAllowed_key isWord_instructions (List.forall_mem_cons.2
        ⟨rfl, isAllowed_spaces (isAllowed_entryChars 0 i (isAllowed_entriesChars 1 is)) 2⟩)
  have hstate : ∀ c ∈ (stateText p.linked).toList, isAllowed c = true := by
    cases p.linked <;> exact List.all_eq_true.1 rfl
  rw [documentChars, List.forall_mem_append]
  constructor
  · split
    · exact List.forall_mem_nil _
    · exact isAllowed_pair isWord_source (isAllowed_value p.source)
  · exact isAllowed_pair isWord_resolved (isAllowed_line hstate (isAllowed_spaces hinstructions 0))

theorem reachesSome_source (hs : Printer.IsFaithful s) (hrest : AtToken rest) :
    ReachesSome (.start ("source".toList ++ ':' :: ' ' :: ((Printer.value s).toList ++ rest)))
      fun line => ⟨(pairLexemes 1 "source".toList (Printer.style s != .plain) s.toList).reverse ++
        [⟨.blockMap, 1⟩], [0], true, rest, line, 0⟩ := by
  refine ReachesSome.trans (reaches_key_value rfl (by simp [Place.start])
    (show 0 < depthLimit by decide) rfl isWord_source (by decide) (atToken_value s rest))
    fun _ => ?_
  exact reachesSome_value hs rfl rfl (Nat.succ_ne_zero _) rfl hrest

/-- **The document of a program is scanned as its tokens**, if the source is read as it was
meant. -/
theorem exists_scan_documentChars {p : Program} (h : ∀ i ∈ p.code, i.op.isDefined = true)
    (hsource : Printer.IsFaithful p.source) :
    ∃ line, Yaml.Token.scan (String.ofList (documentChars p)) = documentLexemes line p := by
  have hcode : ∀ i ∈ p.code.toList, i.op.isDefined = true :=
    fun i hi => h i (Array.mem_toList_iff.1 hi)
  have hallowed := isAllowed_documentChars p
  have hreads := @reads_stateAndInstructions p.code.toList hcode
  by_cases hempty : p.source = ""
  · rw [documentChars, if_pos hempty, List.nil_append] at hallowed ⊢
    obtain ⟨_, hscan⟩ := exists_scan_eq (l := fun _ => _) isWord_resolved rfl hallowed
      (.refl _) (fun _ => hreads (.inl rfl) [] 1 p.linked)
    refine ⟨1, ?_⟩
    refine hscan.trans ?_
    rw [documentLexemes, if_pos hempty]
    rfl
  · rw [documentChars, if_neg hempty, List.append_assoc] at hallowed ⊢
    obtain ⟨line, hscan⟩ := exists_scan_eq (l := fun line => _) isWord_source rfl hallowed
      (reachesSome_source hsource (isWord_resolved.atToken _))
      (fun line => hreads (.inr rfl) _ line p.linked)
    refine ⟨line, hscan.trans ?_⟩
    rw [documentLexemes, if_neg hempty, List.reverse_append, List.reverse_reverse]
    rfl

end StackLang.Listing

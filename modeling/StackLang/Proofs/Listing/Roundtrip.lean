import StackLang.Proofs.Listing.Tokens
import StackLang.Proofs.Loading
import StackLang.Proofs.Yaml.Blocks
import StackLang.Proofs.Yaml.Gives

/-!
# Listings are read back

The tokens of a listing are read as the tree of its program (`read_documentChars`), and from that
tree every field of the program is decoded as it was (`documentRecord_fills`).
-/

set_option autoImplicit false

namespace StackLang.Listing

open Yaml Decode

variable {line addr : Nat} {i : Instr} {is : List Instr} {p : Program}

/-! ## Trees -/

/-- A key and its value. -/
def pair (line : Nat) (key : String) (quoted : Bool) (value : String) : Node × Node :=
  (.scalar line none false key, .scalar line none quoted value)

theorem arePairs_pair {more : List Lexeme} {pairs : List (Node × Node)} (h : ArePairs more pairs)
    (line : Nat) (key : String) (quoted : Bool) (value : String) :
    ArePairs (pairLexemes line key.toList quoted value.toList ++ more)
      (pair line key quoted value :: pairs) := by
  rw [pairLexemes, String.ofList_toList, String.ofList_toList]
  exact arePairs_cons (isNode_scalar line quoted value) h

/-- The pairs of an entry. -/
def entryPairs (line addr : Nat) (i : Instr) : List (Node × Node) :=
  [pair line "addr" false (toString addr),
    pair (line + 1) "op" (Printer.style i.op.name != .plain) i.op.name,
    pair (line + 2) "imm" false (toString i.imm)]

/-- The trees of entries. -/
def entryNodes (line addr : Nat) : List Instr → List Node
  | [] => []
  | i :: is => .map line none (entryPairs line addr i) :: entryNodes (line + 3) (addr + 1) is

theorem arePairs_entry (line addr : Nat) (i : Instr) :
    ArePairs (pairLexemes line "addr".toList false (toString addr).toList ++
      (pairLexemes (line + 1) "op".toList (Printer.style i.op.name != .plain) i.op.name.toList ++
        (pairLexemes (line + 2) "imm".toList false (toString i.imm).toList ++
          [⟨.blockEnd, line + 3⟩]))) (entryPairs line addr i) :=
  arePairs_pair (arePairs_pair (arePairs_pair (arePairs_nil _) _ _ _ _) _ _ _ _) _ _ _ _

theorem areItems_entries (line addr : Nat) (is : List Instr) (l : Nat) :
    AreItems (entriesLexemes line addr is ++ [⟨.blockEnd, l⟩]) (entryNodes line addr is) := by
  induction is generalizing line addr with
  | nil => exact areItems_nil l
  | cons i is ih =>
    have hitems := areItems_cons (l := line) (isNode_map (l := line) (arePairs_entry line addr i))
      (ih (line + 3) (addr + 1))
    rw [entriesLexemes, entryLexemes, entryNodes]
    simpa only [List.cons_append, List.append_assoc, List.nil_append] using hitems

/-- The tree of instructions. -/
def instructionsNode (line : Nat) : List Instr → Node
  | [] => .seq line none []
  | i :: is => .seq (line + 1) none (entryNodes (line + 1) 0 (i :: is))

theorem arePairs_instructions {more : List Lexeme} {pairs : List (Node × Node)}
    (h : ArePairs more pairs) (line : Nat) (is : List Instr) :
    ArePairs (instructionsLexemes line is ++ more)
      ((.scalar line none false "instructions", instructionsNode line is) :: pairs) := by
  cases is with
  | nil => exact arePairs_cons (isNode_brackets line line) h
  | cons i is => exact arePairs_cons (isNode_seq (areItems_entries (line + 1) 0 (i :: is) _)) h

/-- The pairs of a document whose state is in line `line`. -/
def documentPairs (line : Nat) (p : Program) : List (Node × Node) :=
  (if p.source = "" then [] else [pair 1 "source" (Printer.style p.source != .plain) p.source]) ++
    [pair line "resolved" false (stateText p.linked),
      (.scalar (line + 1) none false "instructions", instructionsNode (line + 1) p.code.toList)]

theorem arePairs_document (line : Nat) (p : Program) (l : Nat) :
    ArePairs ((if p.source = "" then [] else
      pairLexemes 1 "source".toList (Printer.style p.source != .plain) p.source.toList) ++
        (pairLexemes line "resolved".toList false (stateText p.linked).toList ++
          (instructionsLexemes (line + 1) p.code.toList ++ [⟨.blockEnd, l⟩])))
      (documentPairs line p) := by
  have hstate := arePairs_pair (arePairs_instructions (arePairs_nil l) (line + 1) p.code.toList)
    line "resolved" false (stateText p.linked)
  rw [documentPairs]
  split
  · exact hstate
  · exact arePairs_pair hstate 1 "source" _ p.source

/-- **The document of a program is read as its tree.** -/
theorem read_documentChars (h : ∀ i ∈ p.code, i.op.isDefined = true)
    (hsource : Printer.IsFaithful p.source) :
    ∃ line, Document.read (String.ofList (documentChars p)) =
      some (some { root := .map 1 none (documentPairs line p) }) := by
  obtain ⟨line, hscan⟩ := exists_scan_documentChars h hsource
  refine ⟨line, ?_⟩
  have hmap := ofTokens?_map (l := 1) (m := line + 1 + 1 + 3 * p.code.toList.length)
    (arePairs_document line p (line + 1 + 1 + 3 * p.code.toList.length))
  rw [Document.read, hscan, documentLexemes, stateAndInstructionsLexemes]
  simpa only [List.cons_append, List.append_assoc, List.nil_append] using hmap

/-! ## Entries -/

/-- A string is read as a string, whatever its style. -/
theorem isString_style (s : String) : IsString (Printer.style s != .plain) s := by
  have hsuits := Printer.suits_style s
  cases hstyle : Printer.style s with
  | plain =>
    rw [hstyle] at hsuits
    have hreads := hsuits.1
    rw [Printer.readsAsString] at hreads
    split at hreads
    · exact .inr ‹_›
    · cases hreads
  | _ => exact .inl rfl

theorem ofName?_name {op : Op} (h : op.isDefined = true) : Op.ofName? op.name = some op := by
  cases op <;> first | rfl | cases h

theorem readOp_gives {op : Op} (h : op.isDefined = true) (line : Nat) :
    Gives (readOp (.scalar line none (Printer.style op.name != .plain) op.name)) (some op) := by
  have hstring := isString_style op.name
  refine gives_follow nofun ?_
  rw [if_neg (by simpa using hstring.shortTag_ne)]
  refine (stringOf_gives hstring).bind ?_
  simp only [ofName?_name h]
  exact gives_pure _

theorem readInt_toString {n : Int} (h : Literal.fits n = true) (line : Nat) (type : String) :
    Gives (readInt type (.scalar line none false (toString n))) (some (Int64.ofInt n)) :=
  readInt_gives (Plain.meaning_toString h true) h

theorem fits_addr (h : addr < 0x8000000000000000) : Literal.fits addr = true := by
  simp only [Literal.fits, Bool.and_eq_true, decide_eq_true_eq]
  omega

theorem entryRecord_fills (hi : i.op.isDefined = true) (haddr : addr < 0x8000000000000000) :
    entryRecord.Fills (entryPairs line addr i) {} ⟨Int64.ofInt addr, i⟩ := by
  have haddr' := readInt_toString (fits_addr haddr) line "int"
  have himm := readInt_toString (Literal.fits_toInt i.imm) (line + 2) "int64"
  rw [Int64.ofInt_toInt] at himm
  refine ⟨rfl, ["imm", "op", "addr"], ?_⟩
  refine Record.readPairs_gives (.inr rfl) (by decide) rfl rfl rfl haddr' ?_
  refine Record.readPairs_gives (.inr rfl) (by decide) rfl rfl rfl (readOp_gives hi (line + 1)) ?_
  refine Record.readPairs_gives (.inr rfl) (by decide) rfl rfl rfl himm ?_
  exact gives_pure _

/-- The entries of instructions from `addr` on. -/
def entriesOf (addr : Nat) : List Instr → List Entry
  | [] => []
  | i :: is => ⟨Int64.ofInt addr, i⟩ :: entriesOf (addr + 1) is

theorem map_instr_entriesOf (addr : Nat) (is : List Instr) :
    (entriesOf addr is).map Entry.instr = is := by
  induction is generalizing addr with
  | nil => rfl
  | cons i is ih => rw [entriesOf, List.map_cons, ih]

theorem misplaced?_entriesOf (h : addr + is.length ≤ 0x8000000000000000) :
    misplaced? addr (entriesOf addr is) = none := by
  induction is generalizing addr with
  | nil => rfl
  | cons i is ih =>
    rw [List.length_cons] at h
    have hfits : Literal.fits addr = true := fits_addr (by omega)
    obtain ⟨x, hx⟩ := Literal.fits_iff.1 hfits
    rw [entriesOf, misplaced?, ← hx, Int64.ofInt_toInt, if_pos rfl, ih (by omega)]

theorem readItems_entries (hi : ∀ i ∈ is, i.op.isDefined = true)
    (hsize : addr + is.length ≤ 0x8000000000000000) (line : Nat) :
    Gives (readItems (entryRecord.read {}) (entryNodes line addr is)) (entriesOf addr is) := by
  induction is generalizing addr line with
  | nil => exact gives_pure []
  | cons i is ih =>
    obtain ⟨hi, his⟩ := List.forall_mem_cons.1 hi
    rw [List.length_cons] at hsize
    exact readItems_gives (Record.read_gives (entryRecord_fills hi (by omega)))
      (ih his (by omega) (line + 3))

/-! ## Documents -/

theorem readList_instructions (hi : ∀ i ∈ is, i.op.isDefined = true)
    (hsize : is.length ≤ 0x8000000000000000) (line : Nat) (type : String) :
    Gives (readList type (entryRecord.read {}) (instructionsNode line is))
      (some (some (entriesOf 0 is))) := by
  cases is with
  | nil => exact readList_gives (gives_pure [])
  | cons i is => exact readList_gives (readItems_entries hi (by omega) (line + 1))

theorem readBool_stateText (linked : Bool) (line : Nat) :
    Gives (readBool (.scalar line none false (stateText linked))) (some linked) := by
  cases linked <;> exact readBool_gives rfl

/-- **The tree of a program gives the source, the state and the instructions of the program.** -/
theorem documentRecord_fills (hi : ∀ i ∈ p.code, i.op.isDefined = true)
    (hsize : p.size ≤ 0x8000000000000000) (line : Nat) :
    documentRecord.Fills (documentPairs line p) {}
      { source := p.source, linked := p.linked, entries := entriesOf 0 p.code.toList } := by
  have hstate := readBool_stateText p.linked line
  have hcode := readList_instructions (fun i h => hi i (Array.mem_toList_iff.1 h))
    (by rwa [Array.length_toList]) (line + 1) "[]program.listingEntry"
  rw [documentPairs]
  split
  · rename_i hempty
    refine ⟨rfl, ["instructions", "resolved"], ?_⟩
    refine Record.readPairs_gives (.inr rfl) (by decide) rfl rfl rfl hstate ?_
    refine Record.readPairs_gives (.inr rfl) (by decide) rfl rfl rfl hcode ?_
    rw [hempty]
    exact gives_pure _
  · have hsource := readString_gives (l := 1) (isString_style p.source)
    refine ⟨rfl, ["instructions", "resolved", "source"], ?_⟩
    refine Record.readPairs_gives (.inr rfl) (by decide) rfl rfl rfl hsource ?_
    refine Record.readPairs_gives (.inr rfl) (by decide) rfl rfl rfl hstate ?_
    refine Record.readPairs_gives (.inr rfl) (by decide) rfl rfl rfl hcode ?_
    exact gives_pure _

/-- **A program is read back from its document.** -/
theorem exists_toYaml_eq (hi : p.IsDefined) (hsize : p.size ≤ 0x8000000000000000)
    (hsource : Printer.IsFaithful p.source) :
    ∃ text, toYaml p = .ok text ∧ ofYaml text = .ok p := by
  obtain ⟨line, hread⟩ := read_documentChars hi hsource
  have hdecode := Record.decodeText_eq_ok hread (documentRecord_fills hi hsize line)
  have hplaced : misplaced? 0 (entriesOf 0 p.code.toList) = none :=
    misplaced?_entriesOf (by rwa [Nat.zero_add, Array.length_toList])
  refine ⟨_, toYaml_eq_ok hi, ?_⟩
  rw [ofYaml, hdecode]
  simp only [Except.mapError, Except.bind, bind, hplaced, map_instr_entriesOf]

/-- Only an undefined operation keeps a program from having a document. -/
theorem exists_toYaml_error_iff :
    (∃ op, toYaml p = .error op) ↔ ∃ i ∈ p.code, i.op.isDefined = false := by
  constructor
  · rintro ⟨op, hop⟩
    by_contra hall
    have hdef : p.IsDefined := fun i hi => by simpa using fun h => hall ⟨i, hi, h⟩
    cases hop.symm.trans (toYaml_eq_ok hdef)
  · rintro ⟨i, hi, hundefined⟩
    cases hfind : p.code.toList.find? fun i => !i.op.isDefined with
    | none =>
      have hdef := List.find?_eq_none.1 hfind i (Array.mem_toList_iff.2 hi)
      simp [hundefined] at hdef
    | some j =>
      refine ⟨j.op, ?_⟩
      delta toYaml
      rw [hfind]

/-- **Listings are read back as they were written.**  A program whose operations are defined,
whatever its state and its immediates, has a document from which that very program is read.  A
program has none exactly if one of its operations is undefined, and no document, wherever it comes
from, gives an undefined operation.  So a program that is loaded from source text has no issues and
can be reloaded from its listing.  The addresses have to be integers of 64 bits, and the name of the
source a string that is read as it was meant. -/
theorem listing_round_trip :
    (∀ p : Program, p.IsDefined → p.size ≤ 0x8000000000000000 → Printer.IsFaithful p.source →
      ∃ text, toYaml p = .ok text ∧ ofYaml text = .ok p) ∧
    (∀ p : Program, (∃ op, toYaml p = .error op) ↔ ∃ i ∈ p.code, i.op.isDefined = false) ∧
    (∀ (octets : List UInt8) (p : Program), ofYaml octets = .ok p → p.IsDefined) ∧
    ∀ (file : String) (duplIsDump : Bool) (octets : List UInt8) (p : Program),
      Program.load file (.choose duplIsDump) octets = .ok p → p.size < 0x8000000000000000 →
      Printer.IsFaithful file →
        p.lint = [] ∧ ∃ text, toYaml p = .ok text ∧ ofYaml text = .ok p := by
  refine ⟨fun p => exists_toYaml_eq, fun p => exists_toYaml_error_iff,
    fun octets p => ofYaml_isDefined, fun file duplIsDump octets q h hsize hfile => ?_⟩
  obtain ⟨p, hsource, hdef, hlink⟩ :=
    Program.exists_of_ofTokensLinked (Vocabulary.choose_isDefined duplIsDump) h
  have hfaithful : Printer.IsFaithful q.source := by
    obtain ⟨b, -, rfl⟩ := Program.exists_of_link hlink
    rwa [hsource]
  exact ⟨Program.lint_of_link hdef.ops hsize hlink,
    exists_toYaml_eq (hdef.link hlink) hsize.le hfaithful⟩

/-- The mnemonics that look like truth values, with the least and the greatest immediate; the
program without instructions; a code that names no operation; and `IF END` from source text. -/
theorem listing_round_trip_limits :
    let p : Program :=
      { source := "x: y",
        code := #[⟨.pushTrue, -0x8000000000000000⟩, ⟨.pushFalse, 0x7FFFFFFFFFFFFFFF⟩] }
    let q : Program := { linked := true }
    let r : Program := { source := "f", code := #[⟨.branch, 1⟩, ⟨.close, 2⟩], linked := true }
    (∃ text, toYaml p = .ok text ∧ ofYaml text = .ok p ∧ p.IsDefined) ∧
      (∃ text, toYaml q = .ok text ∧ ofYaml text = .ok q ∧ q.IsDefined) ∧
      (∃ op, toYaml { code := #[⟨.dump, 0⟩, ⟨.undefined 3, 0⟩] } = .error op) ∧
      Program.load "f" (.choose false) [0x49, 0x46, 0x20, 0x45, 0x4E, 0x44] = .ok r ∧
      r.lint = [] ∧ ∃ text, toYaml r = .ok text ∧ ofYaml text = .ok r := by
  intro p q r
  obtain ⟨hback, herror, hdef, hload⟩ := listing_round_trip
  have hscan : StackLang.Token.scan "f" [0x49, 0x46, 0x20, 0x45, 0x4E, 0x44] =
      [⟨"f", 1, 1, "IF"⟩, ⟨"f", 1, 4, "END"⟩] := by decide +kernel
  have hr : Program.load "f" (.choose false) [0x49, 0x46, 0x20, 0x45, 0x4E, 0x44] = .ok r := by
    rw [Program.load, hscan]
    rfl
  refine ⟨?_, ?_, (herror _).2 ⟨⟨.undefined 3, 0⟩, by simp, rfl⟩, hr,
    hload _ _ _ _ hr (by decide) (Printer.isFaithful_of_notMem (by decide))⟩
  · obtain ⟨text, hwrite, hread⟩ := hback p (by simp [p, Program.IsDefined, Op.isDefined])
      (by decide) (Printer.isFaithful_of_notMem (by decide))
    exact ⟨text, hwrite, hread, hdef text p hread⟩
  · obtain ⟨text, hwrite, hread⟩ := hback q (by simp [q, Program.IsDefined]) (by decide)
      (Printer.isFaithful_of_notMem (by decide))
    exact ⟨text, hwrite, hread, hdef text q hread⟩

end StackLang.Listing

import StackLang.Cli.Run
import StackLang.Proofs.Lint.Linked
import StackLang.Proofs.Yaml.Returns

/-!
# Programs that are loaded

A program comes from source text or from a listing.  Either way its operations are defined: the
words of the vocabularies are, and a listing names its operations (`ofTokens_isDefined`,
`ofYaml_isDefined`).  Once linked, such a program has no issues, so nothing that is loaded for
running or compiling has any, whether it is checked or not.
-/

set_option autoImplicit false

namespace StackLang

/-! ## Source text -/

/-- All operations of a program are defined. -/
def Program.IsDefined (p : Program) : Prop := ∀ i ∈ p.code, i.op.isDefined = true

theorem Program.IsDefined.ops {p : Program} (h : p.IsDefined) :
    ∀ op ∈ p.ops, op.isDefined = true := by
  intro op hop
  obtain ⟨i, hi, rfl⟩ := List.mem_map.1 hop
  exact h i (Array.mem_toList_iff.1 hi)

/-- All words of a vocabulary have defined operations. -/
def Vocabulary.IsDefined (v : Vocabulary) : Prop := ∀ w ∈ v.words, w.2.isDefined = true

theorem Vocabulary.choose_isDefined (duplIsDump : Bool) : (choose duplIsDump).IsDefined := by
  cases duplIsDump <;>
    simp [Vocabulary.IsDefined, choose, early, standard, commonWords, Op.isDefined]

theorem Instr.ofToken_isDefined {v : Vocabulary} (hv : v.IsDefined) {t : Token} {i : Instr}
    (h : Instr.ofToken v t = .ok i) : i.op.isDefined = true := by
  rw [Instr.ofToken] at h
  split at h
  · rename_i op hfind
    cases h
    obtain ⟨w, hw, rfl⟩ := Option.map_eq_some_iff.1 hfind
    exact hv w (List.mem_of_find?_eq_some hw)
  · split at h
    · cases h
      rfl
    · cases h

namespace Program

variable {p q : Program} {v : Vocabulary}

theorem ofTokens_isDefined (hv : v.IsDefined) {tokens : List Token}
    (h : ofTokens v tokens = .ok p) : p.IsDefined := by
  obtain ⟨code, hcode, h⟩ := exists_of_bind_ok h
  cases h
  intro i hi
  exact forall_of_mapM_ok (fun _ _ => Instr.ofToken_isDefined hv) hcode i (List.mem_toArray.1 hi)

theorem IsDefined.link (hp : p.IsDefined) (h : p.link = (q, none)) : q.IsDefined := by
  intro i hi
  have hop : i.op ∈ q.ops := List.mem_map_of_mem (Array.mem_toList_iff.2 hi)
  rw [ops_of_link h] at hop
  exact hp.ops _ hop

/-- A program from source text has been linked from one whose operations are defined. -/
theorem exists_of_ofTokensLinked (hv : v.IsDefined) {file : String} {tokens : List Token}
    (h : ofTokensLinked file v tokens = .ok q) :
    ∃ p : Program, p.source = file ∧ p.IsDefined ∧ p.link = (q, none) := by
  obtain ⟨p, hp, h⟩ := exists_of_bind_ok h
  have hdef := ofTokens_isDefined hv (ok_of_mapError hp)
  refine ⟨{ p with source := file }, rfl, hdef, ?_⟩
  split at h
  · cases h
    assumption
  · cases h

theorem exists_of_loadFile (hv : v.IsDefined) {files : Files} {path : String}
    (h : loadFile files v path = .ok q) : ∃ p : Program, p.IsDefined ∧ p.link = (q, none) := by
  obtain ⟨tokens, -, h⟩ := exists_of_bind_ok h
  obtain ⟨p, -, hp⟩ := exists_of_ofTokensLinked hv h
  exact ⟨p, hp⟩

end Program

/-! ## Listings -/

namespace Listing

open Yaml

theorem isDefined_of_ofName? {name : String} {op : Op} (h : Op.ofName? name = some op) :
    op.isDefined = true := by
  have hall : ∀ op ∈ Op.all, op.isDefined = true := by decide
  exact hall op (List.mem_of_find?_eq_some h)

theorem readOp_returns (n : Node) :
    Decode.Returns (readOp n) fun v => ∀ op, v = some op → op.isDefined = true := by
  refine Decode.returns_follow fun n => Decode.returns_ite ?_ ?_
  · exact scalarAs_returns nofun n
  · refine Decode.returns_of_bind fun name => ?_
    split
    · exact Decode.returns_pure nofun
    · split
      · rename_i op hop
        refine Decode.returns_pure ?_
        rintro _ ⟨⟩
        exact isDefined_of_ofName? hop
      · exact Decode.returns_throw _

theorem entryRecord_keeps : entryRecord.Keeps fun e => e.instr.op.isDefined = true := by
  simp only [Record.Keeps, entryRecord, List.forall_mem_cons]
  exact ⟨Field.keeps_of_set fun _ _ h => h, Field.keeps_of readOp_returns fun _ _ _ h => h,
    Field.keeps_of_set fun _ _ h => h, nofun⟩

theorem documentRecord_keeps :
    documentRecord.Keeps fun d => ∀ e ∈ d.entries, e.instr.op.isDefined = true := by
  simp only [Record.Keeps, documentRecord, List.forall_mem_cons]
  refine ⟨Field.keeps_of_set fun _ _ h => h, Field.keeps_of_set fun _ _ h => h, ?_, nofun⟩
  exact Field.keeps_of (readList_returns fun n => Record.read_returns entryRecord_keeps rfl n)
    fun _ _ _ h => h

/-- Every operation of a program that a listing gives is defined. -/
theorem ofYaml_isDefined {octets : List UInt8} {p : Program} (h : ofYaml octets = .ok p) :
    p.IsDefined := by
  obtain ⟨d, hd, h⟩ := exists_of_bind_ok h
  have hdefined := Record.decodeText_keeps documentRecord_keeps (by simp) (ok_of_mapError hd)
  split at h
  · cases h
  · cases h
    simpa [Program.IsDefined] using hdefined

theorem loadListing_isDefined {files : Files} {path : String} {p : Program}
    (h : Program.loadListing files path = .ok p) : p.IsDefined := by
  obtain ⟨entry, -, h⟩ := exists_of_bind_ok h
  split at h
  · cases h
  · obtain ⟨q, hq, h⟩ := exists_of_bind_ok h
    have hdef := ofYaml_isDefined (ok_of_mapError hq)
    cases h
    split
    · exact hdef
    · exact hdef

end Listing

namespace Cli

variable {c : Config} {files : Files} {path : String} {p q : Program}

/-- What is loaded is a linked program, and has no issues if it comes from a listing. -/
theorem loadChecked_eq_ok_iff :
    loadChecked c files path = .ok p ↔
      loadLinked c files path = .ok p ∧ (isListing path = true → p.lint = []) := by
  constructor
  · intro h
    obtain ⟨q, hq, h⟩ := exists_of_bind_ok h
    dsimp only at h
    split at h
    · cases h
    · rename_i hpass
      cases h
      refine ⟨hq, fun hpath => ?_⟩
      simpa [hpath] using hpass
  · rintro ⟨hp, hpass⟩
    rw [loadChecked, hp]
    refine if_neg ?_
    simpa using hpass

/-- Source text is linked from defined operations. -/
theorem loadLinked_source (hpath : isListing path = false) (h : loadLinked c files path = .ok q) :
    ∃ p : Program, p.IsDefined ∧ p.link = (q, none) := by
  rw [loadLinked, if_neg (by simp [hpath])] at h
  exact Program.exists_of_loadFile (Vocabulary.choose_isDefined _) h

/-- A listing that is not linked yet is linked while it is loaded. -/
theorem loadLinked_listing (hpath : isListing path = true)
    (hp : Program.loadListing files path = .ok p) (hlinked : p.linked = false)
    (h : p.link = (q, none)) : loadLinked c files path = .ok q := by
  rw [loadLinked, if_pos hpath, hp]
  show (if p.linked = true then pure p else _) = _
  rw [if_neg (by simp [hlinked])]
  simp only [h]
  rfl

/-- **Nothing that is loaded has issues.**  A program whose operations are defined has none once it
is linked.  So a program that is loaded is linked and has none, from source text as well, where
nothing is checked; and a listing that has to be linked first passes the check behind that.
Throughout, the length of the program is itself an immediate. -/
theorem loaded_programs_clean :
    (∀ p q : Program, (∀ i ∈ p.code, i.op.isDefined = true) → p.size < 0x8000000000000000 →
      p.link = (q, none) → q.lint = []) ∧
    (∀ (c : Config) (files : Files) (path : String) (p : Program),
      (isListing path = false → p.size < 0x8000000000000000) →
      loadChecked c files path = .ok p → p.linked = true ∧ p.lint = []) ∧
    (∀ (c : Config) (files : Files) (path : String) (p q : Program), isListing path = true →
      Program.loadListing files path = .ok p → p.linked = false →
      p.size < 0x8000000000000000 → p.link = (q, none) → loadChecked c files path = .ok q) := by
  refine ⟨fun p q hdef hsize h => ?_, fun c files path p hsize h => ?_,
    fun c files path p q hpath hp hlinked hsize h => ?_⟩
  · rw [← Program.size_of_link h] at hsize
    exact Program.lint_of_link (Program.IsDefined.ops hdef) hsize h
  · obtain ⟨hp, hpass⟩ := loadChecked_eq_ok_iff.1 h
    cases hpath : isListing path with
    | true =>
      have hlint := hpass hpath
      exact ⟨(Program.lint_eq_nil_iff.1 hlint).1, hlint⟩
    | false =>
      obtain ⟨p₀, hdef, hlink⟩ := loadLinked_source hpath hp
      exact ⟨Program.linked_of_link hlink, Program.lint_of_link hdef.ops (hsize hpath) hlink⟩
  · rw [← Program.size_of_link h] at hsize
    have hdef := Listing.loadListing_isDefined hp
    exact loadChecked_eq_ok_iff.2 ⟨loadLinked_listing hpath hp hlinked h,
      fun _ => Program.lint_of_link hdef.ops hsize h⟩

/-- `WHILE 1 DO END` as source text, with a comment that is no text, and `IF END` as a listing that
leaves out what is 0. -/
theorem loaded_programs_clean_files :
    (∃ p, loadChecked {} { entries := [(["w"], .file (Text.encode "WHILE 1 DO END //" ++ [0xE9])
        false)] } "w" = .ok p ∧
      p.code = #[⟨.loop, 0⟩, ⟨.push, 1⟩, ⟨.body, 4⟩, ⟨.close, 0⟩] ∧
      p.linked = true ∧ p.lint = []) ∧
    ∃ p q, Program.loadListing { entries := [([".yaml"],
        .file "instructions:\n- op: IF\n- addr: 1\n  op: END" false)] } ".yaml" = .ok p ∧
      p.linked = false ∧ p.link = (q, none) ∧ q.code = #[⟨.branch, 1⟩, ⟨.close, 2⟩] ∧
      q.lint = [] ∧ loadChecked {} { entries := [([".yaml"],
        .file "instructions:\n- op: IF\n- addr: 1\n  op: END" false)] } ".yaml" = .ok q := by
  constructor
  · have hp : (loadChecked {} { entries := [(["w"],
        .file (Text.encode "WHILE 1 DO END //" ++ [0xE9]) false)] } "w").toOption =
        some { source := "w", code := #[⟨.loop, 0⟩, ⟨.push, 1⟩, ⟨.body, 4⟩, ⟨.close, 0⟩]
               linked := true } := by
      decide +kernel
    exact ⟨_, ok_of_toOption hp, rfl,
      loaded_programs_clean.2.1 _ _ _ _ (fun _ => by decide) (ok_of_toOption hp)⟩
  · have hp : (Program.loadListing { entries := [([".yaml"],
        .file "instructions:\n- op: IF\n- addr: 1\n  op: END" false)] } ".yaml").toOption =
        some { source := ".yaml", code := #[⟨.branch, 0⟩, ⟨.close, 0⟩] } := by
      decide +kernel
    have hlink : Program.link { source := ".yaml", code := #[⟨.branch, 0⟩, ⟨.close, 0⟩] } =
        ({ source := ".yaml", code := #[⟨.branch, 1⟩, ⟨.close, 2⟩], linked := true }, none) := by
      decide
    exact ⟨_, _, ok_of_toOption hp, rfl, hlink, rfl,
      loaded_programs_clean.1 _ _ (by decide) (by decide) hlink,
      loaded_programs_clean.2.2 _ _ _ _ _ (by decide) (ok_of_toOption hp) rfl (by decide) hlink⟩

end Cli

end StackLang

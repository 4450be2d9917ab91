import StackLang.Program
import StackLang.Table
import StackLang.Error
import StackLang.Yaml.Text
import StackLang.Yaml.Printer

/-!
# Listings

A listing shows the instructions of a program with their addresses, as a table for readers or as a
YAML document that can be read back.
-/

set_option autoImplicit false

namespace StackLang

namespace Listing

/-! ## Tables -/

/-- The source of a program and whether it is linked. -/
def title (p : Program) : String :=
  let state := if p.linked then "resolved" else "unresolved"
  if p.source == "" then state else p.source ++ " (" ++ state ++ ")"

/-- A note on where a jump of a linked program goes. -/
def note (p : Program) (addr : Nat) (i : Instr) : String :=
  if !p.linked || !i.op.isJump then ""
  else if i.op = .close ∧ i.imm.toInt = addr + 1 then "fallthrough"
  else if i.imm.toInt < addr then "loop back"
  else if i.imm.toInt = p.size then "exit"
  else ""

/-- The row of an instruction. -/
def row (p : Program) (addr : Nat) (i : Instr) : List Cell :=
  [.num addr, { text := i.op.name, isNumber := true },
    .str (if i.op = .push || i.op.isJump then toString i.imm else ""), .str (note p addr i)]

/-- The table of a program, with its end as the footer. -/
def table (p : Program) : Table :=
  { title := title p,
    header := ["Addr", "Op", "Imm", "Note"],
    rows := (p.code.toList.zipIdx).map fun (i, addr) => row p addr i,
    footer := some [.num p.size, .str "", .str "", .str "end of program"] }

/-! ## Writing YAML -/

/-- The lines of one instruction. -/
def yamlEntry (addr : Nat) (i : Instr) : String :=
  "  - addr: " ++ toString addr ++ "\n    op: " ++ Yaml.Printer.value i.op.name ++
    "    imm: " ++ toString i.imm ++ "\n"

/-- The lines of instructions from `addr` on. -/
def yamlEntries (addr : Nat) : List Instr → List String
  | [] => []
  | i :: rest => yamlEntry addr i :: yamlEntries (addr + 1) rest

/-- The document of a program, or the first undefined operation in it. -/
def toYaml (p : Program) : Except Op String :=
  match p.code.toList.find? fun i => !i.op.isDefined with
  | some i => .error i.op
  | none =>
    let source := if p.source == "" then "" else "source: " ++ Yaml.Printer.value p.source
    let linked := "resolved: " ++ (if p.linked then "true" else "false") ++ "\n"
    let code :=
      if p.code.isEmpty then "instructions: []\n"
      else "instructions:\n" ++ String.join (yamlEntries 0 p.code.toList)
    .ok (source ++ linked ++ code)

/-- Why a program has no document. -/
def invalidOpMessage (op : Op) : String :=
  "cannot marshal invalid operation " ++ toString op.code

/-! ## Reading YAML -/

/-- An entry of a listing: an instruction and the address it claims to have. -/
structure Entry where
  addr : Int64 := 0
  instr : Instr := { op := .push }
  deriving DecidableEq, Repr

/-- A listing as it stands in a document. -/
structure Document where
  source : String := ""
  linked : Bool := false
  entries : List Entry := []
  deriving DecidableEq, Repr

/-- Read an operation by its name.  A null is absent, and a collection that is tagged as a null is
no operation. -/
def readOp (n : Yaml.Node) : Yaml.Decode (Option Op) :=
  Yaml.Decode.follow n fun n => do
    if n.shortTag == "!!null" then Yaml.scalarAs "instr.Op" (fun _ _ => none) n
    else
      match ← Yaml.stringOf n with
      | none => return none
      | some name =>
        match Op.ofName? name with
        | some op => return some op
        | none => throw (.unknownName n.line name)

/-- The fields of an entry. -/
def entryRecord : Yaml.Record Entry :=
  { type := "program.listingEntry",
    fields := [
      .of "addr" (Yaml.readInt "int") fun e v => { e with addr := v },
      .of "op" readOp (fun e v => { e with instr := { e.instr with op := v } }) true,
      .of "imm" (Yaml.readInt "int64")
        (fun e v => { e with instr := { e.instr with imm := v } }) true] }

/-- The fields of a listing. -/
def documentRecord : Yaml.Record Document :=
  { type := "program.listing",
    fields := [
      .of "source" Yaml.readString fun d v => { d with source := v },
      .of "resolved" Yaml.readBool fun d v => { d with linked := v },
      .of "instructions" (Yaml.readList "[]program.listingEntry" (entryRecord.read {}))
        fun d v => { d with entries := v.getD [] }] }

/-- The first entry, counted from `i`, whose address is not its position. -/
def misplaced? (i : Nat) : List Entry → Option (Nat × Int64)
  | [] => none
  | e :: rest => if e.addr.toInt = i then misplaced? (i + 1) rest else some (i, e.addr)

/-- The program of a document, which need not be sound even if it claims to be linked. -/
def ofYaml (octets : List UInt8) : Except Error Program := do
  let d ← (documentRecord.decodeText {} octets).mapError (.under "decoding listing")
  match misplaced? 0 d.entries with
  | some (i, addr) =>
    .error (.plain ("listing entry " ++ toString i ++ " has address " ++ toString addr) false)
  | none =>
    .ok { source := d.source, linked := d.linked, code := (d.entries.map Entry.instr).toArray }

end Listing

end StackLang

import StackLang.Yaml.Decode

/-!
# Records

A record type is described by its fields, each with the reader of its value.  A null leaves a field
as it is.  A mapping that is decoded as a record may take over the pairs of other mappings.
-/

set_option autoImplicit false

namespace StackLang.Yaml

/-- A field of a record: its key, and how its value changes the record. -/
structure Field (ρ : Type) where
  key : String
  read : Node → ρ → Decode ρ
  /-- Whether the field belongs to a part of the record, which a null cannot have. -/
  inPart : Bool := false

/-- A field whose value is put into the record where it is present. -/
def Field.of {ρ α : Type} (key : String) (read : Node → Decode (Option α)) (set : ρ → α → ρ)
    (inPart : Bool := false) : Field ρ :=
  { key, inPart, read := fun n r => do
      match ← read n with
      | some v => return set r v
      | none => return r }

/-- A record type: its name in messages and its fields. -/
structure Record (ρ : Type) where
  type : String
  fields : List (Field ρ)

/-- Decoding a mapping: the record so far, the keys of the fields given by this mapping, the keys
that are settled when mappings are merged, and the mapping to merge. -/
structure Filling (ρ : Type) where
  value : ρ
  given : List String := []
  settled : Option (List Value) := none
  merge : Option Node := none

/-- Decode one pair of a mapping into a record.  `isNull` says whether the mapping is tagged as a
null. -/
def Record.readPair {ρ : Type} (r : Record ρ) (isNull : Bool) (f : Filling ρ) (key value : Node) :
    Decode (Filling ρ) := do
  if isMergeKey key then return { f with merge := some value }
  match ← readString key with
  | none => return f
  | some name =>
    let (isNew, settled) ←
      match f.settled with
      | none => pure (true, none)
      | some keys => do
        match ← settle (.str name) keys with
        | some keys => pure (true, some keys)
        | none => pure (false, some keys)
    if !isNew then return f
    let f := { f with settled }
    match r.fields.find? (·.key == name) with
    | none =>
      Decode.note (.unknownField key.line name r.type)
      return f
    | some field =>
      if f.given.contains name then
        Decode.note (.repeatedField key.line name r.type)
        return f
      if field.inPart && isNull then throw .nullRecord
      let v ← field.read value f.value
      return { f with value := v, given := name :: f.given }

/-- Decode the pairs of a mapping into a record, in order. -/
def Record.readPairs {ρ : Type} (r : Record ρ) (isNull : Bool) (f : Filling ρ) :
    List (Node × Node) → Decode (Filling ρ)
  | [] => return f
  | (key, value) :: rest => do
    let f ← r.readPair isNull f key value
    r.readPairs isNull f rest

/-- Decode a node into a record.  The flag says whether it was a mapping with distinct keys.
Merges of merges use up `fuel`. -/
def Record.readInto {ρ : Type} (r : Record ρ) : (fuel : Nat) → ρ → Node → Decode (Bool × ρ)
  | 0, _, _ => throw .excessive
  | fuel + 1, value, n =>
    Decode.follow n fun n => do
      match n with
      | .map _ _ pairs =>
        if !(← distinctKeys pairs) then return (false, value)
        let settled := (← get).settled
        modify fun s => { s with settled := none }
        let f ← r.readPairs (n.shortTag == "!!null") { value, settled } pairs
        modify fun s => { s with settled := f.settled }
        match f.merge with
        | none => return (true, f.value)
        | some other =>
          let value ← merge (readAny fuel)
            (fun v n => return (← r.readInto fuel v n).2) pairs other f.value
          return (true, value)
      | .scalar _ tag quoted text =>
        match (← scalarOf tag quoted text).meaning with
        | .null => return (false, value)
        | _ =>
          noteMismatch n r.type
          return (false, value)
      | n =>
        noteMismatch n r.type
        return (false, value)

/-- Enough fuel for the nestings and merges of a document. -/
def mergeFuel : Nat := 1000000

/-- Decode a node as a record, starting from `value`. -/
def Record.read {ρ : Type} (r : Record ρ) (value : ρ) (n : Node) : Decode (Option ρ) := do
  let (good, value) ← r.readInto mergeFuel value n
  return if good then some value else none

/-- Decode a document as a record, starting from `value`, which a null leaves as it is: the record,
or the problems in the order of the document. -/
def Record.decode {ρ : Type} (r : Record ρ) (value : ρ) (d : Document) :
    Except Stop (ρ × List Problem) := do
  let ((_, value), progress) ←
    ((r.readInto mergeFuel value d.root).run { named := d.named }).run { visits := 1 }
  return (value, progress.problems.reverse)

end StackLang.Yaml

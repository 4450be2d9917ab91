import StackLang.Yaml.Node
import StackLang.Yaml.Value
import StackLang.Text.Base64
import StackLang.Text.Utf8

/-!
# Decoding trees

Decoding goes on after a value that does not fit, a key given twice or a key that no field has, and
collects all such problems in the order of the document; only some errors end it at once.  It also
counts the nodes it visits: a document in which too many of them come from references is refused.

A value that is read is present, absent, or noted as a problem.
-/

set_option autoImplicit false

namespace StackLang.Yaml

/-- A problem that decoding goes on after. -/
inductive Problem where
  /-- The value does not fit the type. -/
  | mismatch (line : Nat) (tag value type : String)
  /-- No field has this key. -/
  | unknownField (line : Nat) (key type : String)
  /-- The key stands in the mapping before. -/
  | repeatedKey (line : Nat) (key : String) (first : Nat)
  /-- The field has been given before under another form of its key. -/
  | repeatedField (line : Nat) (key type : String)
  deriving DecidableEq, Repr

/-- A value in a message: between back quotes, and cut after seven octets if it is longer than
ten. -/
def excerpt (value : String) : String :=
  if 10 < value.utf8ByteSize then " `" ++ Text.takeOctets value 7 ++ "...`"
  else " `" ++ value ++ "`"

/-- The problem in words. -/
def Problem.message : Problem → String
  | mismatch line tag value type =>
    let shown := if tag == "!!seq" || tag == "!!map" then value else excerpt value
    "line " ++ toString line ++ ": cannot unmarshal " ++ tag ++ shown ++ " into " ++ type
  | unknownField line key type =>
    "line " ++ toString line ++ ": field " ++ key ++ " not found in type " ++ type
  | repeatedKey line key first =>
    "line " ++ toString line ++ ": mapping key " ++ Text.quoted key ++
      " already defined at line " ++ toString first
  | repeatedField line key type =>
    "line " ++ toString line ++ ": field " ++ key ++ " already set in type " ++ type

/-- An error that ends decoding at once. -/
inductive Stop where
  /-- An operation name that names none. -/
  | unknownName (line : Nat) (name : String)
  /-- A text that does not mean what its tag says. -/
  | wrongTag (meant text tag : String)
  /-- A text tagged as octets that is not base 64. -/
  | notBase64
  /-- A merge with something other than mappings. -/
  | badMerge
  /-- A node that stands for itself. -/
  | selfContained (name : String)
  /-- Too much of the document comes from references. -/
  | excessive
  /-- A mapping whose key is a sequence or a mapping. -/
  | badKey (shown : String)
  /-- A sequence or a mapping as the key of a mapping that takes over others. -/
  | compoundKey (type : String)
  /-- A field of a record that is tagged as a null. -/
  | nullRecord
  deriving DecidableEq, Repr

/-- What decoding has come to. -/
structure Progress where
  /-- The problems, the last one first. -/
  problems : List Problem := []
  /-- The nodes visited, and those of them that references led to. -/
  visits : Nat := 0
  borrowed : Nat := 0
  /-- The keys that are settled while mappings are merged. -/
  settled : Option (List Value) := none

/-- Where decoding is. -/
structure Scope where
  /-- The nodes with a name. -/
  named : Array Node := #[]
  /-- The references that are being followed, by their serial numbers. -/
  following : List Nat := []

/-- Decoding. -/
abbrev Decode := ReaderT Scope (StateT Progress (Except Stop))

/-- The share of visits that references may lead to, by the number of visits. -/
def allowedShare (visits : Nat) : Float :=
  if visits ≤ 400000 then 0.99
  else if 4000000 ≤ visits then 0.10
  else 0.99 - 0.89 * (Float.ofNat (visits - 400000) / 3600000.0)

/-- Whether too many of the visits come from references. -/
def Progress.isExcessive (p : Progress) : Bool :=
  p.borrowed > 100 && p.visits > 1000 &&
    Float.ofNat p.borrowed / Float.ofNat p.visits > allowedShare p.visits

namespace Decode

/-- Note a problem. -/
def note (p : Problem) : Decode Unit := modify fun s => { s with problems := p :: s.problems }

/-- Count a visit to a node. -/
def visit : Decode Unit := do
  let more := if (← read).following.isEmpty then 0 else 1
  modify fun s => { s with visits := s.visits + 1, borrowed := s.borrowed + more }
  if (← get).isExcessive then throw .excessive

/-- Visit a node and the node it refers to, if it is a reference, and go on with `f`. -/
def follow {α : Type} (n : Node) (f : Node → Decode α) : Decode α := do
  visit
  match n with
  | .reference line name target serial =>
    let scope ← read
    if scope.following.contains serial then throw (.selfContained name)
    withReader (fun s => { s with following := serial :: s.following }) do
      visit
      f (scope.named.getD target (Node.empty line))
  | n => f n

end Decode

/-! ## Tags and meanings -/

/-- A scalar with its tag: what it means, and its text. -/
structure Scalar where
  tag : String
  meaning : Meaning
  text : String

/-- The tags that say what the text of a scalar has to mean. -/
def meaningTags : List String := ["!!bool", "!!int", "!!float", "!!null", "!!timestamp"]

/-- A scalar by its tag, its quotes and its text.  A scalar tagged as a string, or quoted, is a
string, and so is one with a tag that is not known; a tag of a meaning has to agree with what the
text means, where an integer may stand for a number. -/
def scalarOf (tag : Option String) (quoted : Bool) (value : String) : Except Stop Scalar :=
  match tag with
  | none =>
    if quoted then .ok ⟨"!!str", .str, value⟩
    else if value == "<<" then .ok ⟨"!!merge", .str, value⟩
    else
      let m := Plain.meaning true value
      .ok ⟨m.tag, m, value⟩
  | some "!!binary" =>
    match Text.decodeBase64 value with
    | some octets => .ok ⟨"!!binary", .str, Text.decodeString octets⟩
    | none => .error .notBase64
  | some t =>
    if !meaningTags.contains t then .ok ⟨t, .str, value⟩
    else
      let m := Plain.meaning (t == "!!timestamp") value
      if t == m.tag then .ok ⟨t, m, value⟩
      else
        match t, m with
        | "!!float", .int n =>
          if Literal.fits n then .ok ⟨t, .float (Float.ofInt n), value⟩
          else .error (.wrongTag m.tag value t)
        | _, _ => .error (.wrongTag m.tag value t)

/-- The tag of a node in messages: that of a scalar is what it means if none is written. -/
def Node.shortTag : Node → String
  | .scalar _ tag quoted value =>
    tag.getD (if quoted then "!!str" else if value == "<<" then "!!merge"
      else (Plain.meaning true value).tag)
  | .seq _ tag _ => tag.getD "!!seq"
  | .map _ tag _ => tag.getD "!!map"
  | .reference _ _ _ _ => ""

/-- The keys of a mapping that stand in it more than once. -/
def repeatedKeys : List (Node × Node) → List Problem
  | [] => []
  | (key, _) :: rest =>
    (rest.filter fun other => other.1.keyText == key.keyText).map
        (fun other => Problem.repeatedKey other.1.line key.keyText.2 key.line) ++
      repeatedKeys rest

/-- Note the keys that stand in a mapping more than once; whether there are none. -/
def distinctKeys (pairs : List (Node × Node)) : Decode Bool := do
  let problems := repeatedKeys pairs
  problems.forM Decode.note
  return problems.isEmpty

/-- Note that a node does not fit a type. -/
def noteMismatch (n : Node) (type : String) : Decode Unit := do
  match n with
  | .scalar line _ _ value => Decode.note (.mismatch line n.shortTag value type)
  | .seq line _ _ => Decode.note (.mismatch line n.shortTag "" type)
  | .map line _ pairs =>
    if ← distinctKeys pairs then Decode.note (.mismatch line n.shortTag "" type)
  | .reference _ _ _ _ => return

/-! ## Scalars and lists -/

/-- Read a scalar with `f`, which is given its meaning and text.  Nulls are absent; what `f`
refuses, and collections, are problems. -/
def scalarAs {α : Type} (type : String) (f : Meaning → String → Option α) (n : Node) :
    Decode (Option α) := do
  match n with
  | .scalar _ tag quoted value =>
    let x ← scalarOf tag quoted value
    match x.meaning with
    | .null => return none
    | m =>
      match f m x.text with
      | some v => return some v
      | none => do
        noteMismatch n type
        return none
  | n => do
    noteMismatch n type
    return none

/-- The text of a scalar. -/
def stringOf (n : Node) : Decode (Option String) := scalarAs "string" (fun _ value => some value) n

/-- Read a string: the text of any scalar. -/
def readString (n : Node) : Decode (Option String) := Decode.follow n stringOf

/-- Read a truth value. -/
def readBool (n : Node) : Decode (Option Bool) :=
  Decode.follow n <| scalarAs "bool" fun m value =>
    match m with
    | .bool b => some b
    | .str => Plain.looseBool? value
    | _ => none

/-- Read an integer of 64 bits, whose type is called `type`.  Fractions are truncated. -/
def readInt (type : String) (n : Node) : Decode (Option Int64) :=
  Decode.follow n <| scalarAs type fun m _ =>
    match m with
    | .int n => if Literal.fits n then some (Int64.ofInt n) else none
    | .float x => Plain.truncate? x
    | _ => none

/-- Read the items of a list, in order; absent ones are left out. -/
def readItems {α : Type} (item : Node → Decode (Option α)) : List Node → Decode (List α)
  | [] => return []
  | n :: rest => do
    let v ← item n
    let vs ← readItems item rest
    return (v.map (· :: vs)).getD vs

/-- Read a list, whose type is called `type`.  A null is the absent list. -/
def readList {α : Type} (type : String) (item : Node → Decode (Option α)) (n : Node) :
    Decode (Option (Option (List α))) :=
  Decode.follow n fun n => do
    match n with
    | .seq _ _ items => return some (some (← readItems item items))
    | .scalar _ tag quoted value =>
      match (← scalarOf tag quoted value).meaning with
      | .null => return some none
      | _ =>
        noteMismatch n type
        return none
    | n =>
      noteMismatch n type
      return none

/-! ## Merging

A mapping may take over the pairs of other mappings under the key `<<`, behind its own. -/

/-- Whether a key asks for a merge. -/
def isMergeKey : Node → Bool
  | .scalar _ tag quoted value =>
    value == "<<" && ((tag == none && !quoted) || tag == some "!!merge")
  | _ => false

/-- Settle a key among others: whether it was not settled before. -/
def settle (key : Value) (keys : List Value) : Decode (Option (List Value)) := do
  match key.compoundType? with
  | some type => throw (.compoundKey type)
  | none => return if keys.any key.sameKey then none else some (key :: keys)

/-- Settle the keys of a mapping that others are merged into, as `any` reads them. -/
def settleAll (any : Node → Decode (Option Value)) : List (Node × Node) → Decode Unit
  | [] => return
  | (key, _) :: rest => do
    match ← any key with
    | none => pure ()
    | some v =>
      let keys := (← get).settled.getD []
      let after ← settle v keys
      modify fun s => { s with settled := some (after.getD keys) }
    settleAll any rest

/-- Whether a node, or what it refers to, is a mapping. -/
def isMapping (n : Node) : Decode Bool := do
  match n with
  | .map _ _ _ => return true
  | .reference _ _ target _ =>
    match (← read).named.getD target (Node.empty 0) with
    | .map _ _ _ => return true
    | _ => return false
  | _ => return false

/-- Merge each of some mappings into a value. -/
def mergeAll {α : Type} (into : α → Node → Decode α) (value : α) : List Node → Decode α
  | [] => return value
  | n :: rest => do
    if !(← isMapping n) then throw .badMerge
    mergeAll into (← into value n) rest

/-- Merge a mapping, or the mappings of a sequence, into the value of a mapping with the given
pairs.  `into` decodes one mapping into it, and `any` reads the keys that are settled first. -/
def merge {α : Type} (any : Node → Decode (Option Value)) (into : α → Node → Decode α)
    (pairs : List (Node × Node)) (other : Node) (value : α) : Decode α := do
  let before := (← get).settled
  if before.isNone then
    modify fun s => { s with settled := some [] }
    settleAll any pairs
  let value ←
    match other with
    | .seq _ _ items => mergeAll into value items
    | n => mergeAll into value [n]
  if before.isNone then modify fun s => { s with settled := none }
  return value

/-! ## Values of no given type -/

/-- Whether all keys of a mapping are strings. -/
def hasStringKeys (named : Array Node) (pairs : List (Node × Node)) : Bool :=
  pairs.all fun (key, _) =>
    let target := match key with
      | .reference _ _ target _ => named.getD target (Node.empty 0)
      | n => n
    target.shortTag == "!!str" || target.shortTag == "!!merge"

/-- Reading a mapping: the pairs so far in reverse, the keys that are settled when mappings are
merged, and the mapping to merge. -/
structure Gathering where
  done : List (Value × Value)
  settled : Option (List Value)
  merge : Option Node := none

/-- Read the pairs of a mapping.  A pair whose key is settled is passed over. -/
def gather (readKey readValue : Node → Decode (Option Value)) (g : Gathering) :
    List (Node × Node) → Decode Gathering
  | [] => return g
  | (key, value) :: rest => do
    if isMergeKey key then gather readKey readValue { g with merge := some value } rest
    else
      match ← readKey key with
      | none => gather readKey readValue g rest
      | some k =>
        let keys := g.settled.getD []
        match ← if g.settled.isSome then settle k keys else pure (some keys) with
        | none => gather readKey readValue g rest
        | some keys =>
          if k.compoundType?.isSome then throw (.badKey k.shown)
          let g := { g with settled := g.settled.map fun _ => keys }
          match ← readValue value with
          | some v => gather readKey readValue { g with done := (k, v) :: g.done } rest
          | none => gather readKey readValue g rest

mutual

/-- Read a node as a value of no given type.  Nestings and merges use up `fuel`. -/
def readAny : (fuel : Nat) → Node → Decode (Option Value)
  | 0, _ => throw .excessive
  | fuel + 1, n =>
    Decode.follow n fun n => do
      match n with
      | .scalar _ tag quoted value =>
        let x ← scalarOf tag quoted value
        return some (.ofMeaning x.meaning x.text)
      | .seq _ _ items => return some (.seq (← readItems (readAny fuel) items))
      | .map _ _ pairs =>
        if ← distinctKeys pairs then
          let general := !hasStringKeys (← read).named pairs
          return some (.map general (← readAnyPairs fuel general pairs []).reverse)
        else return none
      | .reference _ _ _ _ => return none

/-- Read the pairs of a mapping behind `done`, which is in reverse. -/
def readAnyPairs : (fuel : Nat) → (general : Bool) → List (Node × Node) → List (Value × Value) →
    Decode (List (Value × Value))
  | 0, _, _, _ => throw .excessive
  | fuel + 1, general, pairs, done => do
    let settled := (← get).settled
    modify fun s => { s with settled := none }
    let readKey (key : Node) : Decode (Option Value) :=
      if general then readAny fuel key else do return (← readString key).map .str
    let g ← gather readKey (readAny fuel) { done, settled } pairs
    modify fun s => { s with settled := g.settled }
    match g.merge with
    | none => return g.done
    | some other =>
      merge (readAny fuel) (fun done n =>
        Decode.follow n fun n => do
          match n with
          | .map _ _ pairs =>
            if ← distinctKeys pairs then readAnyPairs fuel general pairs done else return done
          | _ => return done) pairs other g.done

end

end StackLang.Yaml

import StackLang.Yaml.Node
import StackLang.Yaml.Token

/-!
# Reading a document

`Document.read` reads the first document of a text as a tree, from the tokens of the text.  It
takes as many tokens as it needs to see where the document ends; if they end in front of that, the
text is malformed.
-/

set_option autoImplicit false

namespace StackLang.Yaml

/-- Where a document is being read. -/
structure Reading where
  tokens : List Lexeme
  /-- What the handles of tags stand for. -/
  handles : Handles := []
  /-- The names given to nodes and the numbers of the nodes, the last one first. -/
  names : List (String × Nat) := []
  /-- The nodes with a name.  One that is being read is still empty. -/
  named : Array Node := #[]
  /-- How many references have been read. -/
  references : Nat := 0

namespace Reading

/-- The token that is next. -/
def peek? (r : Reading) : Option Lexeme := r.tokens.head?

/-- Go on to the token after the next. -/
def skip (r : Reading) : Reading := { r with tokens := r.tokens.tail }

/-- Give a node that starts here a name, if it has one; the result holds its number. -/
def name (r : Reading) (line : Nat) : Option String → Option Nat × Reading
  | none => (none, r)
  | some name =>
    let number := r.named.size
    (some number, { r with
      names := (name, number) :: r.names, named := r.named.push (Node.empty line) })

/-- Keep a node under its number. -/
def keep (r : Reading) (number : Option Nat) (node : Node) : Node × Reading :=
  match number with
  | none => (node, r)
  | some i => (node, { r with named := r.named.setIfInBounds i node })

end Reading

/-! ## Anchors and tags -/

/-- The anchor and the tag in front of a node. -/
structure Properties where
  anchor : Option String := none
  tag : Option Tag := none

/-- Read an anchor and a tag, in either order, as far as they are here. -/
def properties (r : Reading) : Properties × Reading :=
  match r.tokens with
  | ⟨.anchor name, _⟩ :: ⟨.tag tag, _⟩ :: rest => (⟨some name, some tag⟩, { r with tokens := rest })
  | ⟨.tag tag, _⟩ :: ⟨.anchor name, _⟩ :: rest => (⟨some name, some tag⟩, { r with tokens := rest })
  | ⟨.anchor name, _⟩ :: rest => (⟨some name, none⟩, { r with tokens := rest })
  | ⟨.tag tag, _⟩ :: rest => (⟨none, some tag⟩, { r with tokens := rest })
  | _ => ({}, r)

/-- The tag of a node in its short form, unless its handle has no meaning. -/
def Properties.shortTag (p : Properties) (handles : Handles) : Option (Option String) :=
  match p.tag with
  | none => some none
  | some tag => (tag.name? handles).map shortTag?

/-! ## Nodes

All the readers below recurse with one unit of `fuel` less.  Every loop and every nesting takes at
least one token, so that a multiple of their number is enough. -/

/-- Whether a token ends an absent key or value of a block. -/
def endsBlockEntry : Token → Bool
  | .key | .value | .blockEnd => true
  | _ => false

/-- Whether a token ends an absent item of a block. -/
def endsItem : Token → Bool
  | .item | .blockEnd => true
  | _ => false

/-- Whether a token ends an absent value between brackets, of which `close` is the closing one. -/
def endsFlowEntry (close : Token) (t : Token) : Bool := t == .comma || t == close

mutual

/-- A node that starts here.  Without `inBlock` it stands between brackets.  With `asValue` a
sequence may start in the column of the mapping around it. -/
def readNode : (fuel : Nat) → (inBlock asValue : Bool) → Reading → Option (Node × Reading)
  | 0, _, _, _ => none
  | fuel + 1, inBlock, asValue, r => do
    let first ← r.peek?
    match first.token with
    | .reference name =>
      let target ← r.names.lookup name
      return (.reference first.line name target r.references,
        { r.skip with references := r.references + 1 })
    | _ =>
      let (p, r) := properties r
      let tag ← p.shortTag r.handles
      let (number, r) := r.name first.line p.anchor
      let t ← r.peek?
      let (node, r) ←
        match t.token with
        | .scalar quoted text => pure (Node.scalar first.line tag quoted text, r.skip)
        | .flowSeq =>
          let (items, r) ← flowItems fuel true [] r.skip
          pure (Node.seq first.line tag items, r)
        | .flowMap =>
          let (pairs, r) ← flowPairs fuel true [] r.skip
          pure (Node.map first.line tag pairs, r)
        | token =>
          if asValue && token == .item then
            let (items, r) ← looseItems fuel [] r
            pure (Node.seq first.line tag items, r)
          else if inBlock && token == .blockSeq then
            let (items, r) ← blockItems fuel [] r.skip
            pure (Node.seq first.line tag items, r)
          else if inBlock && token == .blockMap then
            let (pairs, r) ← blockPairs fuel [] r.skip
            pure (Node.map first.line tag pairs, r)
          else if p.anchor.isSome || p.tag.isSome then
            pure (Node.scalar first.line tag false "", r)
          else none
      return r.keep number node

/-- The items of a sequence in a block of its own. -/
def blockItems : (fuel : Nat) → (items : List Node) → Reading → Option (List Node × Reading)
  | 0, _, _ => none
  | fuel + 1, items, r => do
    let t ← r.peek?
    match t.token with
    | .item =>
      let r := r.skip
      if endsItem (← r.peek?).token then blockItems fuel (Node.empty t.line :: items) r
      else
        let (item, r) ← readNode fuel true false r
        blockItems fuel (item :: items) r
    | .blockEnd => return (items.reverse, r.skip)
    | _ => none

/-- The items of a sequence in the column of the mapping around it. -/
def looseItems : (fuel : Nat) → (items : List Node) → Reading → Option (List Node × Reading)
  | 0, _, _ => none
  | fuel + 1, items, r => do
    let t ← r.peek?
    match t.token with
    | .item =>
      let r := r.skip
      let after := (← r.peek?).token
      if endsItem after || endsBlockEntry after then
        looseItems fuel (Node.empty t.line :: items) r
      else
        let (item, r) ← readNode fuel true false r
        looseItems fuel (item :: items) r
    | _ => return (items.reverse, r)

/-- The key or the value of a mapping in a block, behind the token in line `line` that announces
it. -/
def blockEntry : (fuel : Nat) → (line : Nat) → Reading → Option (Node × Reading)
  | 0, _, _ => none
  | fuel + 1, line, r => do
    if endsBlockEntry (← r.peek?).token then return (Node.empty line, r)
    else readNode fuel true true r

/-- The pairs of a mapping in a block of its own. -/
def blockPairs : (fuel : Nat) → (pairs : List (Node × Node)) → Reading →
    Option (List (Node × Node) × Reading)
  | 0, _, _ => none
  | fuel + 1, pairs, r => do
    let t ← r.peek?
    match t.token with
    | .key =>
      let (key, r) ← blockEntry fuel t.line r.skip
      let t ← r.peek?
      let (value, r) ←
        if t.token == .value then blockEntry fuel t.line r.skip else some (Node.empty t.line, r)
      blockPairs fuel ((key, value) :: pairs) r
    | .blockEnd => return (pairs.reverse, r.skip)
    | _ => none

/-- The value of a pair between brackets, if there is one. -/
def flowValue : (fuel : Nat) → (close : Token) → Reading → Option (Node × Reading)
  | 0, _, _ => none
  | fuel + 1, close, r => do
    let t ← r.peek?
    if t.token == .value then
      let r := r.skip
      let after ← r.peek?
      if endsFlowEntry close after.token then return (Node.empty after.line, r)
      else readNode fuel false false r
    else return (Node.empty t.line, r)

/-- The items of a sequence between brackets; all but the first stand behind a comma.  A key makes
an item a mapping of one pair.  An absent key takes the token after it along. -/
def flowItems : (fuel : Nat) → (isFirst : Bool) → (items : List Node) → Reading →
    Option (List Node × Reading)
  | 0, _, _, _ => none
  | fuel + 1, isFirst, items, r => do
    let t ← r.peek?
    if t.token == .flowSeqEnd then return (items.reverse, r.skip)
    let r ← if isFirst then some r else if t.token == .comma then some r.skip else none
    let t ← r.peek?
    match t.token with
    | .flowSeqEnd => return (items.reverse, r.skip)
    | .key =>
      let r := r.skip
      let after ← r.peek?
      let (key, r) ←
        if after.token == .value || endsFlowEntry .flowSeqEnd after.token then
          some (Node.empty after.line, r.skip)
        else readNode fuel false false r
      let (value, r) ← flowValue fuel .flowSeqEnd r
      flowItems fuel false (.map t.line none [(key, value)] :: items) r
    | _ =>
      let (item, r) ← readNode fuel false false r
      flowItems fuel false (item :: items) r

/-- The pairs of a mapping between braces; all but the first stand behind a comma. -/
def flowPairs : (fuel : Nat) → (isFirst : Bool) → (pairs : List (Node × Node)) → Reading →
    Option (List (Node × Node) × Reading)
  | 0, _, _, _ => none
  | fuel + 1, isFirst, pairs, r => do
    let t ← r.peek?
    if t.token == .flowMapEnd then return (pairs.reverse, r.skip)
    let r ← if isFirst then some r else if t.token == .comma then some r.skip else none
    let t ← r.peek?
    match t.token with
    | .flowMapEnd => return (pairs.reverse, r.skip)
    | .key =>
      let r := r.skip
      let after ← r.peek?
      let (key, r) ←
        if after.token == .value || endsFlowEntry .flowMapEnd after.token then
          some (Node.empty after.line, r)
        else readNode fuel false false r
      let (value, r) ← flowValue fuel .flowMapEnd r
      flowPairs fuel false ((key, value) :: pairs) r
    | _ =>
      let (key, r) ← readNode fuel false false r
      let after ← r.peek?
      flowPairs fuel false ((key, Node.empty after.line) :: pairs) r

end

/-! ## Documents -/

/-- Read the directives in front of a document.  The flag says whether one gives the version, which
is 1.1; neither the version nor the meaning of a handle is given twice. -/
def readDirectives (version : Bool) (handles : Handles) :
    List Lexeme → Option (Handles × List Lexeme)
  | ⟨.directive (.version major minor), _⟩ :: rest =>
    if version || major != 1 || minor != 1 then none else readDirectives true handles rest
  | ⟨.directive (.handle name stem), _⟩ :: rest =>
    if (handles.lookup name).isSome then none
    else readDirectives version (handles ++ [(name, stem)]) rest
  | tokens => some (handles ++ standardHandles, tokens)

/-- Whether a token ends an empty document. -/
def endsDocument : Token → Bool
  | .directive _ | .documentStart | .documentEnd | .finish => true
  | _ => false

/-- The root of a document without a marker in front. -/
def Reading.root (r : Reading) : Option Document := do
  let (root, r) ← readNode (8 * r.tokens.length + 8) true false r
  let _ ← r.peek?
  return { root, named := r.named }

/-- The first document of a list of tokens, if there is one, unless they are malformed. -/
def Document.ofTokens? (tokens : List Lexeme) : Option (Option Document) := do
  let first ← tokens.head?
  match first.token with
  | .finish => return none
  | .directive _ | .documentStart => do
    let (handles, rest) ← readDirectives false [] tokens
    let start ← rest.head?
    if start.token != .documentStart then none
    let after ← rest.tail.head?
    if endsDocument after.token then return some { root := Node.empty after.line }
    else return some (← Reading.root { tokens := rest.tail, handles })
  | _ => return some (← Reading.root { tokens, handles := standardHandles })

/-- The first document of a text, if there is one, unless the text is malformed. -/
def Document.read (octets : List UInt8) : Option (Option Document) :=
  Document.ofTokens? (Token.scan octets)

end StackLang.Yaml

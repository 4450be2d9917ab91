/-!
# Document trees

A document is a tree of scalars, sequences and mappings.  Every node knows the line it starts on
and the tag written in front of it, if one is.  A reference stands for the node that its name was
last given to when the reference was read, which may be a node around it; so the nodes with a name
are kept beside the tree, by number.
-/

set_option autoImplicit false

namespace StackLang.Yaml

/-- A node of a document. -/
inductive Node where
  /-- A scalar.  `quoted` holds unless it is written plain. -/
  | scalar (line : Nat) (tag : Option String) (quoted : Bool) (value : String)
  | seq (line : Nat) (tag : Option String) (items : List Node)
  | map (line : Nat) (tag : Option String) (pairs : List (Node × Node))
  /-- A reference: its name, the number of the node it stands for, and how many references stand in
  front of it. -/
  | reference (line : Nat) (name : String) (target serial : Nat)
  deriving Repr, Inhabited

namespace Node

/-- The scalar that an absent node stands for. -/
def empty (line : Nat) : Node := .scalar line none false ""

/-- The line a node starts on. -/
def line : Node → Nat
  | scalar line _ _ _ | seq line _ _ | map line _ _ | reference line _ _ _ => line

/-- What two keys of a mapping have in common when they are the same: their form and their
text. -/
def keyText : Node → Nat × String
  | scalar _ _ _ value => (0, value)
  | seq _ _ _ => (1, "")
  | map _ _ _ => (2, "")
  | reference _ name _ _ => (3, name)

end Node

/-- A document: its tree and the nodes with a name, by number. -/
structure Document where
  root : Node
  named : Array Node := #[]

end StackLang.Yaml

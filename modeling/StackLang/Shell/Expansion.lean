import StackLang.Shell.Session
import StackLang.Shell.Pattern
import StackLang.Shell.Arithmetic

/-!
# Expansion of words

What a word stands for when it is used: parameters, the output of commands and expressions take
their values, values that are not quoted are divided at separators, and patterns for file names
become the names they match.
-/

set_option autoImplicit false

namespace StackLang.Shell

open Run

/-- A piece of an expanded word. -/
inductive Bit where
  /-- A character; `divisible` says whether it can separate words. -/
  | char (c : Char) (quoted divisible : Bool)
  /-- A quote, which makes a word even where nothing follows. -/
  | quote
  /-- The end of a word in any case. -/
  | cut

/-- A character with the information whether it was quoted. -/
abbrev Marked := Char × Bool

/-! ## Division into words -/

/-- What a division into words has come to. -/
structure Division where
  /-- The words so far, in reverse. -/
  done : List (List Marked) := []
  /-- The word being put together, in reverse. -/
  word : Option (List Marked) := none
  /-- Whether a separator has just ended a word, and whether it was a blank. -/
  after : Option Bool := none

namespace Division

/-- End the word being put together. -/
def finish (d : Division) : Division :=
  match d.word with
  | none => d
  | some w => { done := w.reverse :: d.done }

/-- Add a piece.  Blanks among the separators count together, with at most one other separator
among them. -/
def add (separators : List Char) (d : Division) : Bit → Division
  | .quote => { d with word := some (d.word.getD []), after := none }
  | .cut => { d.finish with after := none }
  | .char c quoted divisible =>
    if divisible && separators.contains c then
      let blank := c == ' ' || c == '\t' || c == '\n'
      match d.word, d.after with
      | some _, _ => { d.finish with after := some blank }
      | none, none => if blank then d else { d with done := [] :: d.done, after := some false }
      | none, some afterBlank =>
        if blank then d
        else if afterBlank then { d with after := some false }
        else { d with done := [] :: d.done, after := some false }
    else { d with word := some ((c, quoted) :: d.word.getD []), after := none }

end Division

/-- Divide pieces into words. -/
def divide (separators : List Char) (bits : List Bit) : List (List Marked) :=
  (bits.foldl (Division.add separators) {}).finish.done.reverse

/-- The text of pieces, where words are divided by blanks. -/
def Bit.text : List Bit → List Char
  | [] => []
  | .char c _ _ :: rest => c :: Bit.text rest
  | .quote :: rest => Bit.text rest
  | .cut :: rest => ' ' :: Bit.text rest

/-- Pieces as a pattern, in which quoted characters only match themselves. -/
def Bit.pattern : List Bit → List Char
  | [] => []
  | .char c quoted _ :: rest => (if quoted then guarded c else [c]) ++ Bit.pattern rest
  | .quote :: rest => Bit.pattern rest
  | .cut :: rest => ' ' :: Bit.pattern rest

/-! ## Names of files -/

/-- The names in a directory, in octets. -/
def namesIn (files : Files) (path : String) : List String :=
  match files.resolve (if path == "" then "." else Text.spelled path) with
  | .error _ => []
  | .ok place =>
    if !files.isDirAt place then []
    else
      "." :: ".." :: files.entries.filterMap fun (p, _) =>
        if p.length == place.length + 1 && place.isPrefixOf p then
          p.getLast?.map Text.octets
        else none

/-- Whether a path leads to something. -/
def isThere (files : Files) (path : String) : Bool :=
  (files.stat (Text.spelled path)).toOption.isSome

/-- The parts of a pattern between slashes. -/
def patternParts (pattern : List Char) : List (List Char) :=
  (Path.parts (String.ofList pattern)).map String.toList

/-- The paths that match the parts of a pattern and start with `base`. -/
def matchingFrom (files : Files) (base : String) : List (List Char) → List String
  | [] => []
  | [last] =>
    if hasMeta last then (namesMatching last).map (base ++ ·)
    else
      let path := base ++ String.ofList (unguarded last)
      if isThere files path then [path] else []
  | part :: rest =>
    if hasMeta part then
      (namesMatching part).flatMap fun name => matchingFrom files (base ++ name ++ "/") rest
    else matchingFrom files (base ++ String.ofList (unguarded part) ++ "/") rest
where
  /-- The names in the directory that match.  A dot at the start is matched only by a dot. -/
  namesMatching (part : List Char) : List String :=
    let dotted := part.head? == some '.' || (part.take 2) == ['\\', '.']
    (namesIn files base).filter fun name =>
      (dotted || !name.startsWith ".") && isMatch part name.toList

/-- The names of files that a word stands for, in order, if it has a meaning as a pattern and
matches any. -/
def fileNames (files : Files) (word : List Marked) : List String :=
  let pattern := word.flatMap fun (c, quoted) => if quoted then guarded c else [c]
  let literal := String.ofList (word.map Prod.fst)
  if word.any fun (c, quoted) => !quoted && (c == '*' || c == '?' || c == '[') then
    let found := matchingFrom files "" (patternParts pattern)
    if found.isEmpty then [literal] else found.mergeSort fun a b => a ≤ b
  else [literal]

/-! ## Values -/

/-- The value of a parameter: none, one text, or all arguments. -/
inductive ParamValue where
  | none
  | one (s : String)
  | all (args : List String)

/-- The letters of the options that are on. -/
def Options.letters (o : Options) : String :=
  String.ofList ([(o.noUnset, 'u'), (o.exportAll, 'a'), (o.keepFiles, 'C'), (o.showLines, 'v'),
    (o.showCommands, 'x'), (o.readOnly, 'n'), (o.noPatterns, 'f'), (o.exitOnFailure, 'e')
    ].filterMap fun (on, c) => if on then some c else Option.none)

/-- The value of a parameter. -/
def Session.param (s : Session) (name : String) : ParamValue :=
  match name with
  | "@" => .all s.args
  | "*" => .all s.args
  | "#" => .one (toString s.args.length)
  | "?" => .one (toString s.status)
  | "-" => .one s.options.letters
  | "$" => .one "1"
  | "!" =>
    match s.jobs.head? with
    | some (number, _) => .one (toString number)
    | Option.none => .none
  | "0" => .one s.self
  | _ =>
    if name.toList.all isDigit then
      match s.args[digitsValue 10 name.toList - 1]? with
      | some v => .one v
      | Option.none => .none
    else
      match s.value? name with
      | some v => .one v
      | Option.none => .none

/-- The text that stands between arguments which are joined. -/
def Session.joint (s : Session) : String :=
  match s.value? "IFS" with
  | some v => String.ofList (v.toList.take 1)
  | Option.none => " "

/-- The pieces of a text. -/
def bitsOf (quoted divisible : Bool) (text : String) : List Bit :=
  text.toList.map fun c => .char c quoted divisible

/-- The pieces of several texts, each a word of its own. -/
def bitsOfAll (quoted divisible : Bool) : List String → List Bit
  | [] => []
  | [w] => bitsOf quoted divisible w
  | w :: rest => bitsOf quoted divisible w ++ .cut :: bitsOfAll quoted divisible rest

/-- Several texts that are quoted: each is a word, even an empty one. -/
def quotedBits : List String → List Bit
  | [] => []
  | [w] => .quote :: bitsOf true false w
  | w :: rest => .quote :: bitsOf true false w ++ .cut :: quotedBits rest

/-- The pieces of a value. -/
def valueBits (s : Session) (name : String) (quoted dividing : Bool) : ParamValue → List Bit
  | .none => []
  | .one v => bitsOf quoted (!quoted && dividing) v
  | .all args =>
    if quoted then
      if name == "@" && dividing then quotedBits args
      else bitsOf true false ((if name == "@" then " " else s.joint).intercalate args)
    else if dividing then bitsOfAll false true args
    else bitsOf false false (" ".intercalate args)

/-- Whether a value counts as one. -/
def counts (empty : Bool) : ParamValue → Bool
  | .none => false
  | .one v => !empty || v != ""
  | .all args => !empty || args.any (· != "")

/-- The value of a parameter as a text. -/
def valueText (s : Session) : ParamValue → String
  | .none => ""
  | .one v => v
  | .all args => s.joint.intercalate args

/-- Whether a name is that of a variable. -/
def isVariable (name : String) : Bool := isName name.toList

/-- A text without the line ends at its end and without NUL. -/
def outputText (s : String) : String :=
  let cs := s.toList.filter fun c => c != '\x00'
  String.ofList (cs.reverse.dropWhile (· == '\n')).reverse

namespace Kernel

/-- The output of commands. -/
def output (k : Kernel) (body : List Command) : Run String := do
  let s ← get
  let (host, i) := s.host.add (.pipe "")
  set { s with host }
  let status ← k.apart do
    modify fun s => { s with streams := Streams.set s.streams 1 i }
    k.runAll false body
  modify fun s => { s with outputStatus := status, status }
  let text := ((← get).host.unread? i).getD ""
  modify fun s => { s with host := s.host.consume i text.length }
  return outputText text

/-- The value of an expression. -/
def reckon (text : String) : Run String := do
  let s ← get
  match evaluate s.value? s.isFixed text with
  | .ok (n, assigned) =>
    for (name, v) in assigned.reverse do
      assign name (toString v)
    return toString n
  | .error (.expression reason) =>
    fail ("arithmetic expression: " ++ reason ++ ": \"" ++ text ++ "\"")
  | .error (.illegalNumber v) => illegalNumber v
  | .error (.fixed name) => fail (name ++ ": is read only")

mutual

/-- The pieces of a word.  `dividing` says whether it can become several words, and `inside`
whether it stands in a parameter, so that its own characters can separate words too. -/
def expandParts (k : Kernel) (dividing inside : Bool) : (fuel : Nat) → Word → Run (List Bit)
  | 0, _ => return []
  | _, [] => return []
  | n + 1, .quote :: .param "@" .value [] true :: rest => do
    let bits ← k.expandPart dividing inside n (.param "@" .value [] true)
    let marked := match rest with
      | .char _ true :: _ => true
      | .param _ _ _ true :: _ => true
      | .output _ true :: _ => true
      | .arithmetic _ true :: _ => true
      | _ => false
    let rest ← k.expandParts dividing inside n rest
    return (if marked then [.quote] else []) ++ bits ++ rest
  | n + 1, p :: rest => do
    let bits ← k.expandPart dividing inside n p
    return bits ++ (← k.expandParts dividing inside n rest)

/-- The pieces of a part of a word. -/
def expandPart (k : Kernel) (dividing inside : Bool) : (fuel : Nat) → Part → Run (List Bit)
  | 0, _ => return []
  | _, .char c quoted => return [.char c quoted (inside && !quoted)]
  | _, .quote => return [.quote]
  | _, .output body quoted => do
    return bitsOf quoted (!quoted && dividing) (← k.output body)
  | n + 1, .arithmetic body quoted => do
    let text := String.ofList (Bit.text (← k.expandParts false false n body))
    return bitsOf quoted (!quoted && dividing) (← reckon text)
  | n + 1, .param name use arg quoted => do
    let value := (← get).param name
    let unset := match value with
      | .none => true
      | _ => false
    let isSet := match use with
      | .otherwise empty => counts empty value
      | .assign empty => counts empty value
      | .require empty => counts empty value
      | .instead empty => counts empty value
      | _ => !unset
    let argument : Run (List Bit) := k.expandParts dividing (dividing && !quoted) n arg
    let own : Run (List Bit) := do return valueBits (← get) name quoted dividing value
    let text (bits : List Bit) := String.ofList (Bit.text bits)
    let needed : Run Unit := do
      if unset && (← get).options.noUnset then fail (name ++ ": parameter not set")
    match use with
    | .bad => fail "Bad substitution"
    | .value => do needed; own
    | .length => do
      needed
      let length := (valueText (← get) value).length
      return bitsOf quoted (!quoted && dividing) (toString length)
    | .otherwise _ => if isSet then own else argument
    | .instead _ => if isSet then argument else return []
    | .assign _ =>
      if isSet then own
      else
        let v := text (← k.expandParts false false n arg)
        if !isVariable name then fail (name ++ ": bad variable name")
        assign name v
        return bitsOf quoted (!quoted && dividing) v
    | .require empty =>
      if isSet then own
      else
        let v := text (← k.expandParts false false n arg)
        let reason := if !arg.isEmpty then v
          else "parameter not set" ++ (if empty then " or null" else "")
        fail (name ++ ": " ++ reason)
    | .trim atEnd longest => do
      needed
      let pattern := Bit.pattern (← k.expandParts false false n arg)
      let v := (valueText (← get) value).toList
      let v := if atEnd then trimEnd longest pattern v else trimStart longest pattern v
      return bitsOf quoted (!quoted && dividing) (String.ofList v)

end

/-- How deep parameters nest in words. -/
def nesting : Nat := 100000

/-- The home directory in place of a tilde at the start of a word. -/
def expandTilde (w : Word) : Run Word := do
  match w with
  | .char '~' false :: rest =>
    let bare := match rest with
      | [] => true
      | .char '/' false :: _ => true
      | _ => false
    match bare, (← get).value? "HOME" with
    | true, some home => return home.toList.map (.char · true) ++ rest
    | _, _ => return w
  | _ => return w

/-- The words that a word stands for. -/
def expand (k : Kernel) (w : Word) : Run (List String) := do
  let bits ← k.expandParts true false nesting (← expandTilde w)
  let s ← get
  let words := divide s.separators bits
  if s.options.noPatterns then return words.map fun w => String.ofList (w.map Prod.fst)
  return words.flatMap (fileNames s.host.files)

/-- The text that a word stands for where it stays one word. -/
def expandText (k : Kernel) (w : Word) : Run String := do
  let bits ← k.expandParts false false nesting (← expandTilde w)
  return String.ofList (Bit.text bits)

/-- The pattern that a word stands for. -/
def expandPattern (k : Kernel) (w : Word) : Run (List Char) := do
  return Bit.pattern (← k.expandParts false false nesting (← expandTilde w))

end Kernel

end StackLang.Shell

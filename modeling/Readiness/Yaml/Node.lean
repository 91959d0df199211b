import Readiness.Yaml.Token

/-!
# Yaml — Node

The tree a text describes, before scalars are given values.

* `Node` is the tree; an anchor is a number, and an alias refers to one;
* `Node.ofTokens?` reads the tree of the only document of a text.

The number of an anchor is how many names of anchors there were before it, so that an anchor with
a name that was there already does not make the next number larger.
-/

namespace Readiness.Yaml

/-- What may stand before the content of a node. -/
structure Properties where
  anchor : Option Nat
  tag : Option String

inductive Node where
  | scalar (props : Properties) (text : String) (plain : Bool)
  | list (props : Properties) (items : List Node)
  | table (props : Properties) (members : List (Node × Node))
  | alias (anchor : Nat)

/-! ### Parsing -/

/-- The tokens that are left, and the numbers of the anchors so far. -/
structure Parsing where
  tokens : List Token
  anchors : List (String × Nat)

/-- The tags that handles stand for, which directives may redefine. -/
abbrev Handles := List (String × String)

def standardHandles : Handles := [("!", "!"), ("!!", "tag:yaml.org,2002:")]

namespace Parsing

def peek (p : Parsing) : Option Token := p.tokens.head?

def skip (p : Parsing) : Parsing := { p with tokens := p.tokens.tail }

def sees (p : Parsing) (t : Token) : Bool := p.peek == some t

/-- The next token is one of these. -/
def seesAny (p : Parsing) (ts : List Token) : Bool := ts.any p.sees

/-- An anchor with a name, and its number. -/
def bind (p : Parsing) (name : String) : Nat × Parsing :=
  let n := p.anchors.length
  (n, { p with anchors := (name, n) :: p.anchors.filter fun a => a.1 != name })

end Parsing

/-- The anchor at the front. -/
def readAnchor (p : Parsing) : Option Nat × Parsing :=
  match p.peek with
  | some (.anchor name) =>
    let (n, p) := p.skip.bind name
    (some n, p)
  | _ => (none, p)

/-- The tag at the front, in full. -/
def readFullTag (handles : Handles) (p : Parsing) : Option (Option String × Parsing) :=
  match p.peek with
  | some (.tag handle suffix) =>
    if handle = "" then some (some suffix, p.skip)
    else (handles.lookup handle).map fun start => (some (start ++ suffix), p.skip)
  | _ => some (none, p)

/-- An anchor and a tag, in any order, each at most once. -/
def readProperties (handles : Handles) (p : Parsing) : Option (Properties × Parsing) := do
  match readAnchor p with
  | (some n, p) =>
    let (tag, p) ← readFullTag handles p
    return (⟨some n, tag⟩, p)
  | (none, p) =>
    let (tag, p) ← readFullTag handles p
    if tag.isSome then
      let (anchor, p) := readAnchor p
      return (⟨anchor, tag⟩, p)
    else return (⟨none, none⟩, p)

/-- A node that is not there. -/
def Node.nothing : Node := .scalar ⟨none, none⟩ "" true

/-- A scalar; the tag that is a lone mark is none. -/
def Node.ofScalar (props : Properties) (text : String) (plain : Bool) : Node :=
  .scalar { props with tag := props.tag.filter (· ≠ "!") } text plain

mutual

/-- A node.  `block` admits block collections, `entries` one without an indentation of its own. -/
def readNode (fuel : Nat) (handles : Handles) (block entries : Bool) (p : Parsing) :
    Option (Node × Parsing) :=
  match fuel with
  | 0 => none
  | fuel + 1 =>
    match p.peek with
    | some (.alias name) => (p.anchors.lookup name).map fun n => (.alias n, p.skip)
    | _ => do
      let (props, p) ← readProperties handles p
      match p.peek with
      | some .blockEntry =>
        if entries then
          let (items, p) ← readEntries fuel handles true p
          return (.list props items, p)
        else readMissing props p
      | some (.scalar text plain) => return (.ofScalar props text plain, p.skip)
      | some .flowSequence =>
        let (items, p) ← readFlowItems fuel handles true p.skip
        return (.list props items, p)
      | some .flowMapping =>
        let (members, p) ← readFlowMembers fuel handles true p.skip
        return (.table props members, p)
      | some .blockSequence =>
        if block then
          let (items, p) ← readEntries fuel handles false p.skip
          return (.list props items, p)
        else readMissing props p
      | some .blockMapping =>
        if block then
          let (members, p) ← readMembers fuel handles p.skip
          return (.table props members, p)
        else readMissing props p
      | _ => readMissing props p

/-- A node without content is empty, if at least something stands for it. -/
def readMissing (props : Properties) (p : Parsing) : Option (Node × Parsing) :=
  if props.anchor.isSome || props.tag.isSome then some (.scalar props "" true, p) else none

/-- A node, unless one of the tokens `ends` shows that it is not there. -/
def readNodeOr (fuel : Nat) (handles : Handles) (block entries : Bool) (ends : List Token)
    (p : Parsing) : Option (Node × Parsing) :=
  match fuel with
  | 0 => none
  | fuel + 1 =>
    if p.seesAny ends then some (.nothing, p) else readNode fuel handles block entries p

/-- The entries of a block sequence; `open` says that no token of its own closes it. -/
def readEntries (fuel : Nat) (handles : Handles) («open» : Bool) (p : Parsing) :
    Option (List Node × Parsing) :=
  match fuel with
  | 0 => none
  | fuel + 1 =>
    if p.sees .blockEntry then do
      let ends :=
        if «open» then [.blockEntry, .key, .value, .blockEnd] else [.blockEntry, .blockEnd]
      let (x, p) ← readNodeOr fuel handles true false ends p.skip
      let (xs, p) ← readEntries fuel handles «open» p
      return (x :: xs, p)
    else if «open» then some ([], p)
    else if p.sees .blockEnd then some ([], p.skip)
    else none

/-- The members of a block mapping. -/
def readMembers (fuel : Nat) (handles : Handles) (p : Parsing) :
    Option (List (Node × Node) × Parsing) :=
  match fuel with
  | 0 => none
  | fuel + 1 =>
    if p.sees .key then do
      let (k, p) ← readNodeOr fuel handles true true [.key, .value, .blockEnd] p.skip
      let (v, p) ← readMemberValue fuel handles p
      let (ms, p) ← readMembers fuel handles p
      return ((k, v) :: ms, p)
    else if p.sees .blockEnd then some ([], p.skip)
    else none

def readMemberValue (fuel : Nat) (handles : Handles) (p : Parsing) : Option (Node × Parsing) :=
  match fuel with
  | 0 => none
  | fuel + 1 =>
    if p.sees .value then readNodeOr fuel handles true true [.key, .value, .blockEnd] p.skip
    else some (.nothing, p)

/-- The items in brackets; `first` says that there is none before. -/
def readFlowItems (fuel : Nat) (handles : Handles) (first : Bool) (p : Parsing) :
    Option (List Node × Parsing) :=
  match fuel with
  | 0 => none
  | fuel + 1 =>
    if p.sees .flowSequenceEnd then some ([], p.skip)
    else if !first && !p.sees .flowEntry then none
    else
      let p := if first then p else p.skip
      if p.sees .flowSequenceEnd then some ([], p.skip)
      else do
        let (x, p) ←
          if p.sees .key then readSinglePair fuel handles p.skip
          else readNode fuel handles false false p
        let (xs, p) ← readFlowItems fuel handles false p
        return (x :: xs, p)

/-- A mapping of one pair without braces.  A token that shows that the key is not there is
skipped. -/
def readSinglePair (fuel : Nat) (handles : Handles) (p : Parsing) : Option (Node × Parsing) :=
  match fuel with
  | 0 => none
  | fuel + 1 => do
    let (k, p) ←
      if p.seesAny [.value, .flowEntry, .flowSequenceEnd] then some (.nothing, p.skip)
      else readNode fuel handles false false p
    let (v, p) ←
      if p.sees .value then
        readNodeOr fuel handles false false [.flowEntry, .flowSequenceEnd] p.skip
      else some (.nothing, p)
    return (.table ⟨none, none⟩ [(k, v)], p)

/-- The members in braces; `first` says that there is none before. -/
def readFlowMembers (fuel : Nat) (handles : Handles) (first : Bool) (p : Parsing) :
    Option (List (Node × Node) × Parsing) :=
  match fuel with
  | 0 => none
  | fuel + 1 =>
    if p.sees .flowMappingEnd then some ([], p.skip)
    else if !first && !p.sees .flowEntry then none
    else
      let p := if first then p else p.skip
      if p.sees .flowMappingEnd then some ([], p.skip)
      else do
        let (m, p) ← readFlowMember fuel handles p
        let (ms, p) ← readFlowMembers fuel handles false p
        return (m :: ms, p)

/-- A member in braces; one without a key indicator is a key alone. -/
def readFlowMember (fuel : Nat) (handles : Handles) (p : Parsing) :
    Option ((Node × Node) × Parsing) :=
  match fuel with
  | 0 => none
  | fuel + 1 =>
    if p.sees .key then do
      let (k, p) ←
        readNodeOr fuel handles false false [.value, .flowEntry, .flowMappingEnd] p.skip
      if p.sees .value then
        let (v, p) ← readNodeOr fuel handles false false [.flowEntry, .flowMappingEnd] p.skip
        return ((k, v), p)
      else return ((k, .nothing), p)
    else do
      let (k, p) ← readNode fuel handles false false p
      return ((k, .nothing), p)

end

/-! ### Documents -/

/-- The directives before a document: at most one version, which is 1.1 or 1.2, and no handle
twice. -/
def readDirectives (versioned : Bool) (handles : Handles) :
    List Token → Option (Handles × List Token)
  | .version major minor :: ts =>
    if versioned || major != 1 || (minor != 1 && minor != 2) then none
    else readDirectives true handles ts
  | .tagDirective handle start :: ts =>
    if (handles.lookup handle).isSome then none
    else readDirectives versioned (handles ++ [(handle, start)]) ts
  | ts => some (handles, ts)

/-- The document at the front, and the tokens after it. -/
def readDocument (ts : List Token) : Option (Node × List Token) := do
  let fuel := 6 * ts.length + 6
  let implicit := !([.documentStart, .streamEnd].any fun t => ts.head? == some t) &&
    !(ts.head?.any fun t => match t with | .version .. | .tagDirective .. => true | _ => false)
  let (handles, ts) ← readDirectives false [] ts
  let handles := handles ++ standardHandles
  if implicit then
    let (node, p) ← readNode fuel handles true false ⟨ts, []⟩
    return (node, p.tokens)
  else
    match ts with
    | .documentStart :: ts =>
      let ends : List Token := [.documentStart, .documentEnd, .streamEnd]
      let isEnd := ts.head?.any fun t => match t with
        | .version .. | .tagDirective .. => true
        | t => ends.contains t
      if isEnd then return (.nothing, ts)
      else
        let (node, p) ← readNode fuel handles true false ⟨ts, []⟩
        return (node, p.tokens)
    | _ => none

/-- The tree of the only document, or nothing when the text has no document. -/
def Node.ofTokens? (ts : List Token) : Option (Option Node) :=
  if ts = [.streamEnd] then some none
  else do
    let (node, ts) ← readDocument ts
    if (ts.dropWhile (· == .documentEnd)) = [.streamEnd] then return some node else none

end Readiness.Yaml

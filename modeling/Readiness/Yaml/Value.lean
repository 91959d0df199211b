import Readiness.Document.Basic
import Readiness.Json.Reader
import Readiness.Yaml.Node

/-!
# Yaml — Value

The document a tree stands for.

* `Scalar.value?` gives plain scalars their values: null, truth values, numbers, else text;
* `Node.value?` does so throughout, with the nodes that aliases refer to;
* `document?` is the value of a whole text.

Keys are not given values: a key is the text it is written as, and no list or table.
-/

namespace Readiness.Yaml

open Number (Binary64)

/-! ### Numbers -/

/-- Digits in a base, at least one. -/
def digits? (base : Nat) (cs : List Char) : Option Nat := do
  if cs.isEmpty then none
  let ds ← cs.mapM fun c => (Json.hexDigit? c).filter (· < base)
  return ds.foldl (fun n d => n * base + d) 0

/-- Two digits or more of which the first is zero; these are no number, but text. -/
def isPadded (cs : List Char) : Bool :=
  let ds := match cs with
    | '+' :: r | '-' :: r => r
    | _ => cs
  1 < ds.length && ds.head? == some '0' && ds.all Char.isDigit

/-- The bases other than ten, and what marks them. -/
def radixes : List (List Char × Nat) :=
  [("0x".toList, 16), ("0o".toList, 8), ("0b".toList, 2)]

/-- The magnitude that an unsigned numeral names. -/
def magnitude? (cs : List Char) : Option Nat :=
  (radixes.findSome? fun (mark, base) => (Text.dropStart? mark cs).bind (digits? base)).or
    (digits? 10 cs)

/-- The whole number that a numeral names. -/
def whole? (cs : List Char) : Option Int :=
  if isPadded cs then none
  else
    match cs with
    | '-' :: r => (magnitude? r).map fun n => -(n : Int)
    | '+' :: r => (magnitude? r).map fun n => (n : Int)
    | _ => (magnitude? cs).map fun n => (n : Int)

/-- The exponent of a decimal, which may be absent. -/
def exponent? : List Char → Option Int
  | [] => some 0
  | e :: r =>
    if e != 'e' && e != 'E' then none
    else
      match r with
      | '-' :: r => (digits? 10 r).map fun n => -(n : Int)
      | '+' :: r => (digits? 10 r).map fun n => (n : Int)
      | r => (digits? 10 r).map fun n => (n : Int)

/-- An unsigned decimal, with digits before the point or after it. -/
def decimal? (cs : List Char) : Option Binary64 := do
  let (front, r) := cs.span Char.isDigit
  let (back, r) := match r with
    | '.' :: r => r.span Char.isDigit
    | r => ([], r)
  let digits ← digits? 10 (front ++ back)
  let exponent ← exponent? r
  return .ofDecimal digits (exponent - back.length)

/-- A number with a fraction or an exponent, infinity, or what is not a number. -/
def float? (s : String) : Option Binary64 :=
  if [".inf", ".Inf", ".INF", "+.inf", "+.Inf", "+.INF"].contains s then some .infinity
  else if ["-.inf", "-.Inf", "-.INF"].contains s then some (.neg .infinity)
  else if [".nan", ".NaN", ".NAN"].contains s then some .nan
  else
    let x := match s.toList with
      | '+' :: r => decimal? r
      | '-' :: r => (decimal? r).map .neg
      | r => decimal? r
    x.filter fun x => x.isFinite

/-! ### Scalars -/

def isNull (s : String) : Bool := ["null", "Null", "NULL", "~"].contains s

def flag? (s : String) : Option Bool :=
  if ["true", "True", "TRUE"].contains s then some true
  else if ["false", "False", "FALSE"].contains s then some false
  else none

namespace Scalar

/-- A whole number as a value: one beyond 64 bits has none. -/
def ofWhole (i : Int) : Option Document :=
  if -2 ^ 63 ≤ i ∧ i < 2 ^ 64 then some (.integer i) else none

/-- The numeral is short enough to be a whole number at all. -/
def isWhole (i : Int) : Bool := -2 ^ 127 ≤ i && i < 2 ^ 128

/-- Only finite numbers are values. -/
def ofFloat (x : Binary64) : Document := if x.isFinite then .float x else .null

/-- The value of a plain scalar without a tag. -/
def plain? (s : String) : Option Document :=
  if s = "" || isNull s then some .null
  else
    match flag? s, (whole? s.toList).filter isWhole with
    | some b, _ => some (.bool b)
    | none, some i => ofWhole i
    | none, none =>
      match if isPadded s.toList then none else float? s with
      | some x => some (ofFloat x)
      | none => some (.text s)

/-- The tags of the core types. -/
def coreTag (name : String) : String := "tag:yaml.org,2002:" ++ name

/-- A tag of the text's own, of which nothing is known. -/
def isLocal (tag : String) : Bool := Text.hasStart tag "!"

/-- The value of a scalar; a core type asks for a scalar of its form. -/
def value? (tag : Option String) (s : String) (plain : Bool) : Option Document :=
  match tag with
  | none => if plain then plain? s else some (.text s)
  | some tag =>
    if isLocal tag then none
    else if tag = coreTag "bool" then (flag? s).map .bool
    else if tag = coreTag "int" then ((whole? s.toList).filter isWhole).bind ofWhole
    else if tag = coreTag "float" then (float? s).map ofFloat
    else if tag = coreTag "null" then (if isNull s then some .null else none)
    else some (.text s)

end Scalar

/-! ### Trees -/

namespace Node

mutual
/-- How many events the tree makes: one for a scalar or an alias, two around a collection. -/
def size : Node → Nat
  | .scalar .. | .alias _ => 1
  | .list _ xs => 2 + sizeItems xs
  | .table _ ms => 2 + sizeMembers ms

def sizeItems : List Node → Nat
  | [] => 0
  | x :: xs => x.size + sizeItems xs

def sizeMembers : List (Node × Node) → Nat
  | [] => 0
  | (k, v) :: ms => k.size + v.size + sizeMembers ms
end

/-- The tree itself, if it has the anchor. -/
def ifAnchored (props : Properties) (x : Node) : List (Nat × Node) :=
  match props.anchor with
  | some n => [(n, x)]
  | none => []

mutual
/-- The nodes with an anchor, in text order. -/
def anchored : Node → List (Nat × Node)
  | .scalar props s plain => ifAnchored props (.scalar props s plain)
  | .list props xs => ifAnchored props (.list props xs) ++ anchoredItems xs
  | .table props ms => ifAnchored props (.table props ms) ++ anchoredMembers ms
  | .alias _ => []

def anchoredItems : List Node → List (Nat × Node)
  | [] => []
  | x :: xs => x.anchored ++ anchoredItems xs

def anchoredMembers : List (Node × Node) → List (Nat × Node)
  | [] => []
  | (k, v) :: ms => k.anchored ++ v.anchored ++ anchoredMembers ms
end

/-- The anchored nodes of a document, the last one first. -/
abbrev Targets := List (Nat × Node)

/-- What a node refers to, when it is an alias; each time it does costs one of the `jumps`. -/
def target? (targets : Targets) (jumps : Nat) : Node → Option (Node × Nat)
  | .alias n => if jumps = 0 then none else (targets.lookup n).map fun x => (x, jumps - 1)
  | x => some (x, jumps)

/-- The text of a key. -/
def key? (targets : Targets) (jumps : Nat) (x : Node) : Option (String × Nat) :=
  match x.target? targets jumps with
  | some (.scalar _ s _, jumps) => some (s, jumps)
  | _ => none

mutual
/-- The value of a tree in which at most `depth` collections stand inside each other, and the jumps
that are left. -/
def value? (depth : Nat) (targets : Targets) (jumps : Nat) (x : Node) :
    Option (Document × Nat) :=
  match x.target? targets jumps with
  | none | some (.alias _, _) => none
  | some (.scalar props s plain, jumps) =>
    (Scalar.value? props.tag s plain).map fun d => (d, jumps)
  | some (.list props xs, jumps) =>
    match depth with
    | 0 => none
    | depth + 1 =>
      if props.tag.any Scalar.isLocal then none
      else (items? depth targets jumps xs).map fun (ds, jumps) => (.list ds, jumps)
  | some (.table props ms, jumps) =>
    match depth with
    | 0 => none
    | depth + 1 =>
      if props.tag.any Scalar.isLocal then none
      else (members? depth targets jumps ms).map fun (ds, jumps) => (.ofMembers ds, jumps)
termination_by (depth, 0)

def items? (depth : Nat) (targets : Targets) (jumps : Nat) :
    List Node → Option (List Document × Nat)
  | [] => some ([], jumps)
  | x :: xs => do
    let (d, jumps) ← x.value? depth targets jumps
    let (ds, jumps) ← items? depth targets jumps xs
    return (d :: ds, jumps)
termination_by xs => (depth, xs.length + 1)

def members? (depth : Nat) (targets : Targets) (jumps : Nat) :
    List (Node × Node) → Option (List (String × Document) × Nat)
  | [] => some ([], jumps)
  | (k, v) :: ms => do
    let (key, jumps) ← k.key? targets jumps
    let (d, jumps) ← v.value? depth targets jumps
    let (ds, jumps) ← members? depth targets jumps ms
    return ((key, d) :: ds, jumps)
termination_by ms => (depth, ms.length + 1)
end

/-- How many collections may stand inside each other. -/
def depthMax : Nat := 128

/-- How often aliases may be followed, for each event of the document. -/
def jumpsPerEvent : Nat := 100

end Node

/-- The value of a text; one without a document is null. -/
def document? (s : String) : Option Document := do
  let tokens ← Token.scan? s
  match ← Node.ofTokens? tokens with
  | none => return .null
  | some node =>
    let jumps := Node.jumpsPerEvent * node.size
    let (d, _) ← node.value? Node.depthMax node.anchored.reverse jumps
    return d

end Readiness.Yaml

import Readiness.Repository.Object

/-!
# Repository — Pack

Many objects in one file, found through an index.  An object may be stored as changes to another
one of the file.

* `Pack.offset?` looks an id up in the index;
* `Pack.object?` reads the object at an offset, and those it is made from.
-/

namespace Readiness

structure Pack where
  /-- The index: where each object is. -/
  index : ByteArray
  /-- The objects. -/
  data : ByteArray

namespace Pack

/-! ### The index -/

/-- The number that `n` bytes make, the highest first. -/
def number? (bytes : ByteArray) (start n : Nat) : Option Nat :=
  (List.range n).foldlM (fun x i => bytes[start + i]?.map fun b => x * 256 + b.toNat) 0

/-- The bytes of an id. -/
def idBytes : List Char → List UInt8
  | a :: b :: r =>
    UInt8.ofNat ((Json.hexDigit? a).getD 0 * 16 + (Json.hexDigit? b).getD 0) :: idBytes r
  | _ => []

/-- The bytes from `start` on are these. -/
def hasBytes (bytes : ByteArray) (start : Nat) (expected : List UInt8) : Bool :=
  expected.zipIdx.all fun e => bytes[start + e.2]? == some e.1

/-- What an index of the second kind begins with. -/
def indexStart : List UInt8 := [0xFF, 0x74, 0x4F, 0x63, 0, 0, 0, 2]

/-- Where the numbers of objects by first byte begin, and where the ids do. -/
def countsStart : Nat := 8
def idsStart : Nat := countsStart + 256 * 4

/-- How many objects have ids whose first byte is at most `b`. -/
def countUpTo? (p : Pack) (b : Nat) : Option Nat := number? p.index (countsStart + 4 * b) 4

/-- The offset of the object at a position of the index. -/
def offsetAt? (p : Pack) (count position : Nat) : Option Nat := do
  let offsets := idsStart + 24 * count
  let x ← number? p.index (offsets + 4 * position) 4
  if x < 2 ^ 31 then return x
  else number? p.index (offsets + 4 * count + 8 * (x - 2 ^ 31)) 8

/-- The offset of the object with the bytes of its id. -/
def offset? (p : Pack) (id : List UInt8) : Option Nat := do
  let first ← id.head?
  if !hasBytes p.index 0 indexStart then none
  else
    let count ← p.countUpTo? 255
    let low ← if first = 0 then some 0 else p.countUpTo? (first.toNat - 1)
    let high ← p.countUpTo? first.toNat
    let position ← (List.range' low (high - low)).find? fun i =>
      hasBytes p.index (idsStart + 20 * i) id
    p.offsetAt? count position

/-! ### Changes -/

/-- A number in groups of seven bits, the lowest first; gives the place after it. -/
def groups? (bytes : ByteArray) : Nat → Nat → Option (Nat × Nat)
  | 0, _ => none
  | fuel + 1, start => do
    let b ← bytes[start]?
    if b < 0x80 then return (b.toNat, start + 1)
    else
      let (x, next) ← groups? bytes fuel (start + 1)
      return (b.toNat - 0x80 + 128 * x, next)

/-- The bytes of a number that are there: those whose bits in `mask` are set, the lowest first. -/
def sparse? (bytes : ByteArray) (start : Nat) : List Nat → Nat → Option (Nat × Nat)
  | [], _ => some (0, start)
  | weight :: weights, mask =>
    if mask % 2 = 1 then do
      let b ← bytes[start]?
      let (x, next) ← sparse? bytes (start + 1) weights (mask / 2)
      return (b.toNat * weight + x, next)
    else sparse? bytes start weights (mask / 2)

/-- Follows changes to `base`: each one copies a part of it or brings bytes of its own. -/
def changed? (base changes : ByteArray) : Nat → Nat → ByteArray → Option ByteArray
  | 0, _, _ => none
  | fuel + 1, start, out =>
    match changes[start]? with
    | none => some out
    | some b =>
      if 0x80 ≤ b then do
        let (origin, next) ← sparse? changes (start + 1) [1, 2 ^ 8, 2 ^ 16, 2 ^ 24] (b.toNat % 16)
        let (length, next) ← sparse? changes next [1, 2 ^ 8, 2 ^ 16] (b.toNat / 16 % 8)
        let length := if length = 0 then 2 ^ 16 else length
        changed? base changes fuel next (out ++ base.extract origin (origin + length))
      else
        let next := start + 1 + b.toNat
        changed? base changes fuel next (out ++ changes.extract (start + 1) next)

/-- The contents that changes make of `base`; the sizes in front of them are passed over. -/
def applyChanges? (base changes : ByteArray) : Option ByteArray := do
  let (_, start) ← groups? changes changes.size 0
  let (_, start) ← groups? changes changes.size start
  changed? base changes (changes.size + 1) start .empty

/-! ### Objects -/

/-- How far before an object the one is that it changes; gives the place after it. -/
def distance? (bytes : ByteArray) : Nat → Nat → Nat → Option (Nat × Nat)
  | 0, _, _ => none
  | fuel + 1, start, x => do
    let b ← bytes[start]?
    let x := x * 128 + b.toNat % 128
    if b < 0x80 then return (x, start + 1) else distance? bytes fuel (start + 1) (x + 1)

/-- The names of the kinds that are stored as they are. -/
def kindName? : Nat → Option String
  | 1 => some "commit"
  | 2 => some "tree"
  | 3 => some "blob"
  | 4 => some "tag"
  | _ => none

/-- The object at an offset; at most `fuel` objects are changed one into the other. -/
def object? (p : Pack) : Nat → Nat → Option GitObject
  | 0, _ => none
  | fuel + 1, offset => do
    let b ← p.data[offset]?
    let (_, start) ← groups? p.data p.data.size offset
    let changing (base : Nat) (start : Nat) : Option GitObject := do
      let o ← p.object? fuel base
      let changes ← Deflate.expand? p.data start
      let contents ← applyChanges? o.contents changes
      return ⟨o.kind, contents⟩
    match b.toNat / 16 % 8 with
    | 6 =>
      let (distance, start) ← distance? p.data p.data.size start 0
      if distance ≤ offset then changing (offset - distance) start else none
    | 7 =>
      let base ← p.offset? ((p.data.extract start (start + 20)).toList)
      changing base (start + 20)
    | kind =>
      let name ← kindName? kind
      return ⟨name, ← Deflate.expand? p.data start⟩

/-- How many objects may be changed one into the other. -/
def chainMax : Nat := 4096

/-- The object with an id. -/
def find? (p : Pack) (id : String) : Option GitObject :=
  (p.offset? (idBytes id.toList)).bind (p.object? chainMax)

end Pack

end Readiness

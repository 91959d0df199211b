import Readiness.Text.Basic

/-!
# Repository — Deflate

Expanding compressed bytes.

* `Bits` is a stream of bits, `HuffmanCode` a prefix code over it, given by its code lengths;
* `Deflate.blocks?` expands the blocks of a stream;
* `Deflate.expand?` does so behind the two bytes that announce a stream.
-/

namespace Readiness.Deflate

/-! ### Bits -/

/-- A stream of bits, the lowest bit of each byte first. -/
structure Bits where
  bytes : ByteArray
  /-- How many bits have been read. -/
  position : Nat

namespace Bits

def next? (b : Bits) : Option (Nat × Bits) :=
  b.bytes[b.position / 8]?.map fun byte =>
    (byte.toNat / 2 ^ (b.position % 8) % 2, { b with position := b.position + 1 })

/-- A number of `n` bits, the lowest first. -/
def number? : Nat → Bits → Option (Nat × Bits)
  | 0, b => some (0, b)
  | n + 1, b => do
    let (x, b) ← b.next?
    let (y, b) ← number? n b
    return (x + 2 * y, b)

/-- The stream from the next whole byte on. -/
def aligned (b : Bits) : Bits := { b with position := (b.position + 7) / 8 * 8 }

/-- How many bits there are. -/
def size (b : Bits) : Nat := 8 * b.bytes.size

end Bits

/-! ### Prefix codes -/

/-- A code in which shorter words come first, and words of one length in the order of their
symbols. -/
structure HuffmanCode where
  /-- How many words there are of each length, from 1 on. -/
  counts : List Nat
  /-- The symbols in the order of their words. -/
  symbols : Array Nat

namespace HuffmanCode

def lengthMax : Nat := 15

/-- The code that gives each symbol a word of the length at its position; zero is no word. -/
def ofLengths (lengths : List Nat) : HuffmanCode :=
  let each := List.range' 1 lengthMax
  ⟨each.map fun n => lengths.count n,
    (each.flatMap fun n => (lengths.zipIdx.filter fun e => e.1 == n).map (·.2)).toArray⟩

/-- Reads on in a word.  `code` are the bits so far, `first` is the first word of the length to
come, and `index` symbols have shorter words. -/
def symbolFrom? (symbols : Array Nat) :
    List Nat → (code first index : Nat) → Bits → Option (Nat × Bits)
  | [], _, _, _, _ => none
  | n :: counts, code, first, index, b => do
    let (x, b) ← b.next?
    if code + x < first + n then
      let s ← symbols[index + (code + x - first)]?
      return (s, b)
    else symbolFrom? symbols counts (2 * (code + x)) (2 * (first + n)) (index + n) b

/-- The next symbol. -/
def symbol? (c : HuffmanCode) (b : Bits) : Option (Nat × Bits) :=
  symbolFrom? c.symbols c.counts 0 0 0 b

end HuffmanCode

/-! ### Copies -/

/-- The shortest length, and the further bits, of each symbol for a length from 257 on. -/
def lengthTable : Array (Nat × Nat) :=
  #[(3, 0), (4, 0), (5, 0), (6, 0), (7, 0), (8, 0), (9, 0), (10, 0), (11, 1), (13, 1), (15, 1),
    (17, 1), (19, 2), (23, 2), (27, 2), (31, 2), (35, 3), (43, 3), (51, 3), (59, 3), (67, 4),
    (83, 4), (99, 4), (115, 4), (131, 5), (163, 5), (195, 5), (227, 5), (258, 0)]

/-- The shortest distance, and the further bits, of each symbol for a distance. -/
def distanceTable : Array (Nat × Nat) :=
  #[(1, 0), (2, 0), (3, 0), (4, 0), (5, 1), (7, 1), (9, 2), (13, 2), (17, 3), (25, 3), (33, 4),
    (49, 4), (65, 5), (97, 5), (129, 6), (193, 6), (257, 7), (385, 7), (513, 8), (769, 8),
    (1025, 9), (1537, 9), (2049, 10), (3073, 10), (4097, 11), (6145, 11), (8193, 12), (12289, 12),
    (16385, 13), (24577, 13)]

/-- The number that a symbol and further bits make. -/
def tableNumber? (table : Array (Nat × Nat)) (symbol : Nat) (b : Bits) : Option (Nat × Bits) := do
  let (least, more) ← table[symbol]?
  let (x, b) ← b.number? more
  return (least + x, b)

/-- Copies bytes from `distance` before the end to the end, one after the other. -/
def copy? (distance : Nat) : Nat → ByteArray → Option ByteArray
  | 0, out => some out
  | n + 1, out =>
    if distance = 0 ∨ out.size < distance then none
    else
      match out[out.size - distance]? with
      | some b => copy? distance n (out.push b)
      | none => none

/-! ### Blocks -/

/-- Expands symbols up to the end of a block. -/
def symbols? (literals distances : HuffmanCode) :
    Nat → Bits → ByteArray → Option (Bits × ByteArray)
  | 0, _, _ => none
  | fuel + 1, b, out => do
    let (s, b) ← literals.symbol? b
    if s < 256 then symbols? literals distances fuel b (out.push (UInt8.ofNat s))
    else if s = 256 then return (b, out)
    else
      let (length, b) ← tableNumber? lengthTable (s - 257) b
      let (d, b) ← distances.symbol? b
      let (distance, b) ← tableNumber? distanceTable d b
      let out ← copy? distance length out
      symbols? literals distances fuel b out

/-- Copies `n` whole bytes. -/
def stored? : Nat → Bits → ByteArray → Option (Bits × ByteArray)
  | 0, b, out => some (b, out)
  | n + 1, b, out => do
    let (x, b) ← b.number? 8
    stored? n b (out.push (UInt8.ofNat x))

/-- The code lengths of literals in a block without codes of its own. -/
def fixedLengths : List Nat :=
  List.replicate 144 8 ++ List.replicate 112 9 ++ List.replicate 24 7 ++ List.replicate 8 8

/-- The order in which the lengths of the code for code lengths are given. -/
def lengthOrder : List Nat := [16, 17, 18, 0, 8, 7, 9, 6, 10, 5, 11, 4, 12, 3, 13, 2, 14, 1, 15]

/-- Numbers of three bits. -/
def shortNumbers? : Nat → Bits → Option (List Nat × Bits)
  | 0, b => some ([], b)
  | n + 1, b => do
    let (x, b) ← b.number? 3
    let (xs, b) ← shortNumbers? n b
    return (x :: xs, b)

/-- Reads code lengths until there are `count`; some symbols repeat the last one or zero. -/
def lengths? (code : HuffmanCode) (count : Nat) :
    Nat → List Nat → Bits → Option (List Nat × Bits)
  | 0, _, _ => none
  | fuel + 1, ls, b =>
    if count ≤ ls.length then some (ls, b)
    else do
      let (s, b) ← code.symbol? b
      let times (value least bits : Nat) : Option (List Nat × Bits) := do
        let (x, b) ← b.number? bits
        lengths? code count fuel (ls ++ List.replicate (least + x) value) b
      match s with
      | 16 => times (← ls.getLast?) 3 2
      | 17 => times 0 3 3
      | 18 => times 0 11 7
      | s => lengths? code count fuel (ls ++ [s]) b

/-- The codes that a block gives: for literals and lengths, and for distances. -/
def codes? (b : Bits) : Option (HuffmanCode × HuffmanCode × Bits) := do
  let (literals, b) ← b.number? 5
  let (distances, b) ← b.number? 5
  let (given, b) ← b.number? 4
  let (ls, b) ← shortNumbers? (given + 4) b
  let order := (List.range 19).map fun s => ((lengthOrder.zip ls).lookup s).getD 0
  let count := literals + 257 + (distances + 1)
  let (ls, b) ← lengths? (.ofLengths order) count (count + 1) [] b
  return (.ofLengths (ls.take (literals + 257)), .ofLengths (ls.drop (literals + 257)), b)

/-- Expands blocks up to the last one. -/
def blocks? : Nat → Bits → ByteArray → Option ByteArray
  | 0, _, _ => none
  | fuel + 1, b, out => do
    let (last, b) ← b.number? 1
    let (kind, b) ← b.number? 2
    let (b, out) ← match kind with
      | 0 => do
        let (length, b) ← b.aligned.number? 16
        let (_, b) ← b.number? 16
        stored? length b out
      | 1 => symbols? (.ofLengths fixedLengths) (.ofLengths (List.replicate 30 5)) b.size b out
      | 2 => do
        let (literals, distances, b) ← codes? b
        symbols? literals distances b.size b out
      | _ => none
    if last = 1 then return out else blocks? fuel b out

/-- The bytes of a compressed stream that begins at `start`. -/
def expand? (bytes : ByteArray) (start : Nat) : Option ByteArray :=
  blocks? (8 * bytes.size) ⟨bytes, 8 * (start + 2)⟩ .empty

end Readiness.Deflate

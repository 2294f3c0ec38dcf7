import PermissionAudit.Bytes.Basic

/-!
Decompression of deflated data: blocks that are stored, or coded with fixed or
transmitted prefix codes, with references back into what has been produced.
-/

namespace PermissionAudit.Inflate

/-- Why data is not the deflated form of anything. -/
inductive Fault where
  /-- The data ends before the last block does. -/
  | incomplete
  | corrupt
deriving DecidableEq

/-- Deflated data from a bit position on. -/
structure Source where
  data : Array UInt8
  /-- Bits read so far, from the low end of each byte. -/
  position : Nat

namespace Source

def bit (s : Source) : Except Fault (Nat × Source) :=
  match s.data[s.position / 8]? with
  | none => .error .incomplete
  | some byte =>
    .ok (byte.toNat / Nat.pow 2 (s.position % 8) % 2, { s with position := s.position + 1 })

/-- A number of the given count of bits, the low one first. -/
def bits : Nat → Source → Except Fault (Nat × Source)
  | 0, s => .ok (0, s)
  | count + 1, s => do
    let (low, s) ← s.bit
    let (high, s) ← bits count s
    return (low + 2 * high, s)

/-- The source from the next whole byte on. -/
def align (s : Source) : Source := { s with position := (s.position + 7) / 8 * 8 }

end Source

/-- A prefix code: how many codes there are of each length from one on, and the symbols in
order of their codes. -/
structure Code where
  counts : List Nat
  symbols : Array Nat

namespace Code

/-- Code lengths are at most this. -/
def maxLength : Nat := 15

/-- The code in which the symbol at each position has the given length; no length stands for
no code. -/
def ofLengths (lengths : List Nat) : Code :=
  let ranks := (List.range maxLength).map (· + 1)
  { counts := ranks.map fun n => lengths.count n
    symbols := (ranks.flatMap fun n =>
      (lengths.zipIdx.filter fun l => l.1 = n).map (·.2)).toArray }

/-- How much of the code space is taken, in units of the longest codes. -/
def space (c : Code) : Nat :=
  c.counts.foldl (fun space count => 2 * space + count) 0

/-- The whole space is taken. -/
def isComplete (c : Code) : Bool := c.space = Nat.pow 2 maxLength

/-- A code may be incomplete if it has no symbols, or only one and that of a single bit. -/
def isUsable (c : Code) : Bool :=
  c.isComplete || c.symbols.isEmpty || (c.symbols.size = 1 && c.counts.head? = some 1)

/-- Reads a symbol. Codes of one length follow each other; `first` is the first code of the
next length and `index` the position of its symbol. -/
def readFrom (c : Code) : List Nat → Nat → Nat → Nat → Source → Except Fault (Nat × Source)
  | [], _, _, _, _ => .error .corrupt
  | count :: longer, code, first, index, s => do
    let (bit, s) ← s.bit
    let code := 2 * code + bit
    let first := 2 * first
    if code < first + count then
      match c.symbols[index + (code - first)]? with
      | some symbol => return (symbol, s)
      | none => throw .corrupt
    else
      readFrom c longer code (first + count) (index + count) s

/-- Reads a symbol. A code that is not complete has no codes of more than a bit. -/
def read (c : Code) (s : Source) : Except Fault (Nat × Source) :=
  readFrom c (if c.isComplete then c.counts else c.counts.take 1) 0 0 0 s

end Code

/-- Base and extra bits of the copy lengths, from symbol 257 on. -/
def copyLengths : List (Nat × Nat) := [
  (3, 0), (4, 0), (5, 0), (6, 0), (7, 0), (8, 0), (9, 0), (10, 0), (11, 1), (13, 1), (15, 1),
  (17, 1), (19, 2), (23, 2), (27, 2), (31, 2), (35, 3), (43, 3), (51, 3), (59, 3), (67, 4),
  (83, 4), (99, 4), (115, 4), (131, 5), (163, 5), (195, 5), (227, 5), (258, 0)]

/-- Base and extra bits of the distances. -/
def distances : List (Nat × Nat) := [
  (1, 0), (2, 0), (3, 0), (4, 0), (5, 1), (7, 1), (9, 2), (13, 2), (17, 3), (25, 3), (33, 4),
  (49, 4), (65, 5), (97, 5), (129, 6), (193, 6), (257, 7), (385, 7), (513, 8), (769, 8),
  (1025, 9), (1537, 9), (2049, 10), (3073, 10), (4097, 11), (6145, 11), (8193, 12), (12289, 12),
  (16385, 13), (24577, 13)]

/-- A number given by an entry of a table and the extra bits that the entry asks for. -/
def readExtra (table : List (Nat × Nat)) (symbol : Nat) (s : Source) :
    Except Fault (Nat × Source) := do
  match table[symbol]? with
  | none => throw .corrupt
  | some (base, extra) =>
    let (more, s) ← s.bits extra
    return (base + more, s)

/-- Appends a copy of what was produced `distance` bytes ago. -/
def copyBack (distance : Nat) : Nat → Array UInt8 → Array UInt8
  | 0, out => out
  | count + 1, out => copyBack distance count (out.push (out[out.size - distance]?.getD 0))

/-- The symbol that ends a block. -/
def endOfBlock : Nat := 256

/-- The symbols of a block, up to its end. Nothing is copied from before the start. Each symbol
takes at least one bit, so that the number of bits is fuel enough. -/
def readSymbols (literals dists : Code) : Nat → Source → Array UInt8 →
    Except Fault (Source × Array UInt8)
  | 0, _, _ => .error .corrupt
  | fuel + 1, s, out => do
    let (symbol, s) ← literals.read s
    if symbol < endOfBlock then
      readSymbols literals dists fuel s (out.push (UInt8.ofNat symbol))
    else if symbol = endOfBlock then
      return (s, out)
    else
      let (count, s) ← readExtra copyLengths (symbol - endOfBlock - 1) s
      let (dist, s) ← dists.read s
      let (distance, s) ← readExtra distances dist s
      if out.size < distance then throw .corrupt
      readSymbols literals dists fuel s (copyBack distance count out)

/-- A stored block: its length, the complement of it, and the bytes. -/
def readStored (s : Source) (out : Array UInt8) : Except Fault (Source × Array UInt8) := do
  let (length, s) ← s.align.bits 16
  let (complement, s) ← s.bits 16
  let start := s.position / 8
  if length + complement ≠ 0xFFFF then throw .corrupt
  if s.data.size < start + length then throw .incomplete
  return ({ s with position := s.position + 8 * length },
    out ++ s.data.extract start (start + length))

/-- The codes of blocks that transmit none. -/
def fixedLiterals : Code :=
  .ofLengths (List.replicate 144 8 ++ List.replicate 112 9 ++ List.replicate 24 7 ++
    List.replicate 8 8)

def fixedDistances : Code := .ofLengths (List.replicate 32 5)

/-- The order in which the lengths of the length codes are transmitted. -/
def lengthOrder : List Nat := [16, 17, 18, 0, 8, 7, 9, 6, 10, 5, 11, 4, 12, 3, 13, 2, 14, 1, 15]

/-- Code lengths up to a total, the last one first. Three symbols repeat the previous length
or zero. Each symbol gives at least one length, so that the total is fuel enough. -/
def readLengths (c : Code) (total : Nat) :
    Nat → Source → List Nat → Except Fault (List Nat × Source)
  | 0, s, lengths => if lengths.length = total then .ok (lengths, s) else .error .corrupt
  | fuel + 1, s, lengths =>
    if total ≤ lengths.length then
      if lengths.length = total then .ok (lengths, s) else .error .corrupt
    else do
      let (symbol, s) ← c.read s
      let again (length : Nat) (base extra : Nat) : Except Fault (List Nat × Source) := do
        let (more, s) ← s.bits extra
        readLengths c total fuel s (List.replicate (base + more) length ++ lengths)
      match symbol, lengths with
      | 16, [] => throw .corrupt
      | 16, last :: _ => again last 3 2
      | 17, _ => again 0 3 3
      | 18, _ => again 0 11 7
      | length, _ => readLengths c total fuel s (length :: lengths)

/-- The codes that a block transmits. There has to be one for the end of the block. -/
def readCodes (s : Source) : Except Fault (Code × Code × Source) := do
  let (literals, s) ← s.bits 5
  let (dists, s) ← s.bits 5
  let (orders, s) ← s.bits 4
  let literals := literals + 257
  let dists := dists + 1
  if 286 < literals ∨ 30 < dists then throw .corrupt
  let (lengths, s) ← (lengthOrder.take (orders + 4)).foldlM
    (fun (lengths, s) symbol => do
      let (length, s) ← Source.bits 3 s
      return (lengths.set symbol length, s)) (List.replicate 19 0, s)
  let lengthCode := Code.ofLengths lengths
  if !lengthCode.isComplete then throw .corrupt
  let total := literals + dists
  let (lengths, s) ← readLengths lengthCode total total s []
  let lengths := lengths.reverse
  if lengths[endOfBlock]? = some 0 then throw .corrupt
  let literalCode := Code.ofLengths (lengths.take literals)
  let distCode := Code.ofLengths (lengths.drop literals)
  if !literalCode.isUsable || !distCode.isUsable then throw .corrupt
  return (literalCode, distCode, s)

/-- One block, and whether it is the last. -/
def readBlock (s : Source) (out : Array UInt8) :
    Except Fault (Bool × Source × Array UInt8) := do
  let (last, s) ← s.bit
  let (kind, s) ← s.bits 2
  let fuel := 8 * s.data.size + 1
  let (s, out) ← match kind with
    | 0 => readStored s out
    | 1 => readSymbols fixedLiterals fixedDistances fuel s out
    | 2 => do
      let (literals, dists, s) ← readCodes s
      readSymbols literals dists fuel s out
    | _ => throw .corrupt
  return (last = 1, s, out)

/-- Blocks up to the last one. Each takes at least one bit, so that the number of bits is fuel
enough. -/
def readBlocks : Nat → Source → Array UInt8 → Except Fault (Array UInt8)
  | 0, _, _ => .error .corrupt
  | fuel + 1, s, out => do
    let (last, s, out) ← readBlock s out
    if last then return out else readBlocks fuel s out

/-- The data behind its deflated form; what follows the last block does not matter. -/
def inflate (deflated : Array UInt8) : Except Fault Bytes := do
  let out ← readBlocks (8 * deflated.size + 1) ⟨deflated, 0⟩ #[]
  return out.toList

end PermissionAudit.Inflate

import PermissionAudit.Bytes.Basic

/-!
The SHA-1 digest. The message is padded to blocks of 64 bytes; each block is
expanded to 80 words which are mixed, one by one, into the five chaining words.
-/

namespace PermissionAudit.Sha1

/-- The chaining words. -/
structure State where
  a : UInt32
  b : UInt32
  c : UInt32
  d : UInt32
  e : UInt32

def State.initial : State :=
  ⟨0x67452301, 0xEFCDAB89, 0x98BADCFE, 0x10325476, 0xC3D2E1F0⟩

def rotateLeft (x n : UInt32) : UInt32 := (x <<< n) ||| (x >>> (32 - n))

/-- A number as `count` bytes, most significant first. -/
def bigEndian (count n : Nat) : Bytes :=
  (List.range count).map fun i => UInt8.ofNat (n / Nat.pow 256 (count - 1 - i))

/-- The message followed by a one bit, zeros, and its length in bits on eight bytes. -/
def pad (b : Bytes) : Bytes :=
  b ++ 0x80 :: List.replicate ((119 - b.length % 64) % 64) 0 ++ bigEndian 8 (8 * b.length)

/-- Big-endian 32-bit words. -/
def words : Bytes → List UInt32
  | b0 :: b1 :: b2 :: b3 :: rest =>
    ((b0.toUInt32 <<< 24) ||| (b1.toUInt32 <<< 16) ||| (b2.toUInt32 <<< 8) ||| b3.toUInt32) ::
      words rest
  | _ => []

/-- Appends `n` expanded words to the schedule. -/
def expand : Nat → Array UInt32 → Array UInt32
  | 0, w => w
  | n + 1, w =>
    let t := w.size
    let word (back : Nat) : UInt32 := w[t - back]?.getD 0
    expand n (w.push (rotateLeft (word 3 ^^^ word 8 ^^^ word 14 ^^^ word 16) 1))

/-- The mixing function and constant of round `t`. -/
def mixing (t : Nat) (b c d : UInt32) : UInt32 × UInt32 :=
  if t < 20 then ((b &&& c) ||| ((~~~ b) &&& d), 0x5A827999)
  else if t < 40 then (b ^^^ c ^^^ d, 0x6ED9EBA1)
  else if t < 60 then ((b &&& c) ||| (b &&& d) ||| (c &&& d), 0x8F1BBCDC)
  else (b ^^^ c ^^^ d, 0xCA62C1D6)

/-- One round with schedule word `word`; the round number is carried along. -/
def round (s : Nat × State) (word : UInt32) : Nat × State :=
  let (t, ⟨a, b, c, d, e⟩) := s
  let (f, k) := mixing t b c d
  (t + 1, ⟨rotateLeft a 5 + f + e + k + word, a, rotateLeft b 30, c, d⟩)

/-- Mixes one block of 64 bytes into the state. -/
def compress (s : State) (block : Bytes) : State :=
  let schedule := expand 64 (words block).toArray
  let mixed := (schedule.foldl round (0, s)).2
  ⟨s.a + mixed.a, s.b + mixed.b, s.c + mixed.c, s.d + mixed.d, s.e + mixed.e⟩

/-- The 20 bytes of the digest. -/
def digest (b : Bytes) : Bytes :=
  let padded := pad b
  let s := (Bytes.chunks 64 (padded.length / 64) padded).foldl compress State.initial
  [s.a, s.b, s.c, s.d, s.e].flatMap fun w => bigEndian 4 w.toNat

end PermissionAudit.Sha1

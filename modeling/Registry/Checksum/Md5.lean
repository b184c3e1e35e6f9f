/-! # Md5 — the digest of a delivered file

The digest of RFC 1321: a message is padded to blocks of 64 bytes, and each block changes a chain of
four words. `checksum` takes a whole message. A `Context` takes it piece by piece and keeps the bytes
that do not yet fill a block, so a file need not be held as a whole. -/

namespace Registry.Md5

/-! ## One block -/

/-- The four words that a block changes. -/
structure Chain where
  a : UInt32
  b : UInt32
  c : UInt32
  d : UInt32
  deriving DecidableEq, Repr

def Chain.start : Chain := ⟨0x67452301, 0xefcdab89, 0x98badcfe, 0x10325476⟩

/-- One of the 64 steps of a block: how three words of the chain are mixed, the word of the block
that is added, and the constant and the rotation of the step. -/
structure Step where
  mix : UInt32 → UInt32 → UInt32 → UInt32
  index : Nat
  constant : UInt32
  turn : UInt32

/-- The whole part of 2³² · |sin i| for each step i, counted from one. -/
def sines : List UInt32 :=
  [0xd76aa478, 0xe8c7b756, 0x242070db, 0xc1bdceee, 0xf57c0faf, 0x4787c62a, 0xa8304613, 0xfd469501,
   0x698098d8, 0x8b44f7af, 0xffff5bb1, 0x895cd7be, 0x6b901122, 0xfd987193, 0xa679438e, 0x49b40821,
   0xf61e2562, 0xc040b340, 0x265e5a51, 0xe9b6c7aa, 0xd62f105d, 0x02441453, 0xd8a1e681, 0xe7d3fbc8,
   0x21e1cde6, 0xc33707d6, 0xf4d50d87, 0x455a14ed, 0xa9e3e905, 0xfcefa3f8, 0x676f02d9, 0x8d2a4c8a,
   0xfffa3942, 0x8771f681, 0x6d9d6122, 0xfde5380c, 0xa4beea44, 0x4bdecfa9, 0xf6bb4b60, 0xbebfbc70,
   0x289b7ec6, 0xeaa127fa, 0xd4ef3085, 0x04881d05, 0xd9d4d039, 0xe6db99e5, 0x1fa27cf8, 0xc4ac5665,
   0xf4292244, 0x432aff97, 0xab9423a7, 0xfc93a039, 0x655b59c3, 0x8f0ccc92, 0xffeff47d, 0x85845dd1,
   0x6fa87e4f, 0xfe2ce6e0, 0xa3014314, 0x4e0811a1, 0xf7537e82, 0xbd3af235, 0x2ad7d2bb, 0xeb86d391]

/-- The step with a number and a constant. Sixteen steps in a row mix in the same way. -/
def Step.numbered (i : Nat) (constant : UInt32) : Step :=
  let turn (turns : List UInt32) : UInt32 := turns.getD (i % 4) 0
  match i / 16 with
  | 0 => ⟨fun b c d => (b &&& c) ||| (~~~b &&& d), i % 16, constant, turn [7, 12, 17, 22]⟩
  | 1 => ⟨fun b c d => (d &&& b) ||| (~~~d &&& c), (5 * i + 1) % 16, constant, turn [5, 9, 14, 20]⟩
  | 2 => ⟨fun b c d => b ^^^ c ^^^ d, (3 * i + 5) % 16, constant, turn [4, 11, 16, 23]⟩
  | _ => ⟨fun b c d => c ^^^ (b ||| ~~~d), 7 * i % 16, constant, turn [6, 10, 15, 21]⟩

def steps : List Step := sines.zipIdx.map fun (constant, i) => Step.numbered i constant

def rotated (w turn : UInt32) : UInt32 := (w <<< turn) ||| (w >>> (32 - turn))

def Chain.step (words : Array UInt32) (s : Chain) (t : Step) : Chain :=
  let sum := s.a + t.mix s.b s.c s.d + t.constant + words.getD t.index 0
  ⟨s.d, s.b + rotated sum t.turn, s.b, s.c⟩

-- The words of a block, the byte of least weight first.
def words : List UInt8 → List UInt32
  | a :: b :: c :: d :: rest =>
    (a.toUInt32 ||| (b.toUInt32 <<< 8) ||| (c.toUInt32 <<< 16) ||| (d.toUInt32 <<< 24)) :: words rest
  | _ => []

/-- The chain after a block: what its steps give is added to the chain in front of it. -/
def Chain.compress (s : Chain) (block : List UInt8) : Chain :=
  let t := steps.foldl (Chain.step (words block).toArray) s
  ⟨s.a + t.a, s.b + t.b, s.c + t.c, s.d + t.d⟩

/-! ## Padding -/

-- The bytes of a number, the byte of least weight first.
def littleEndian : Nat → Nat → List UInt8
  | 0, _ => []
  | count + 1, n => n.toUInt8 :: littleEndian count (n / 256)

/-- What follows a message of a length: the byte 0x80, zeros up to eight bytes in front of the end of
a block, and the number of bits in the message. -/
def padding (length : Nat) : List UInt8 :=
  0x80 :: (List.replicate ((119 - length % 64) % 64) 0 ++ littleEndian 8 (8 * length))

theorem length_littleEndian (count n : Nat) : (littleEndian count n).length = count := by
  induction count generalizing n with
  | zero => rfl
  | succ count ih => simp [littleEndian, ih]

-- A padded message is a whole number of blocks.
theorem length_padding (length : Nat) : (length + (padding length).length) % 64 = 0 := by
  simp only [padding, List.length_cons, List.length_append, List.length_replicate,
    length_littleEndian]
  omega

/-! ## Many blocks -/

/-- The chain after all whole blocks of some bytes, and the bytes that are left. -/
def Chain.absorb (s : Chain) (bytes : List UInt8) : Chain × List UInt8 :=
  match _h : bytes.drop 63 with
  | [] => (s, bytes)
  | _ :: rest => (s.compress (bytes.take 64)).absorb rest
termination_by bytes.length
decreasing_by
  have : (bytes.drop 63).length = bytes.length - 63 := List.length_drop
  simp only [_h, List.length_cons] at this
  omega

theorem Chain.absorb_of_short (s : Chain) {bytes : List UInt8} (h : bytes.length < 64) :
    s.absorb bytes = (s, bytes) := by
  rw [Chain.absorb]
  split
  · rfl
  · next rest hdrop =>
    have : (bytes.drop 63).length = bytes.length - 63 := List.length_drop
    simp only [hdrop, List.length_cons] at this
    omega

-- The first block of some bytes is taken first.
theorem Chain.absorb_block (s : Chain) {block : List UInt8} (rest : List UInt8)
    (h : block.length = 64) : s.absorb (block ++ rest) = (s.compress block).absorb rest := by
  rw [Chain.absorb]
  have hdrop : (block ++ rest).drop 64 = rest := by simp [← h]
  have htake : (block ++ rest).take 64 = block := by simp [← h]
  split
  · next hnil =>
    have := congrArg List.length hnil
    simp only [List.length_drop, List.length_append, List.length_nil] at this
    omega
  · next _ tail hcons =>
    have : tail = rest := by
      rw [← hdrop, show 64 = 63 + 1 from rfl, ← List.drop_drop, hcons, List.drop_one, List.tail_cons]
    rw [htake, this]

/-! ## Digests -/

def hexPair (b : UInt8) : List Char :=
  [Nat.digitChar (b.toNat / 16), Nat.digitChar (b.toNat % 16)]

def Chain.text (s : Chain) : String :=
  String.ofList ([s.a, s.b, s.c, s.d].flatMap fun w => (littleEndian 4 w.toNat).flatMap hexPair)

def checksum (message : List UInt8) : String :=
  (Chain.start.absorb (message ++ padding message.length)).1.text

/-! ## Messages in pieces -/

/-- A message that is still being delivered: the chain after its whole blocks, the bytes behind
them, and the number of bytes so far. -/
structure Context where
  chain : Chain
  pending : List UInt8
  length : Nat
  deriving DecidableEq, Repr

namespace Context

def empty : Context := ⟨.start, [], 0⟩

def consume (c : Context) (piece : List UInt8) : Context :=
  let (chain, pending) := c.chain.absorb (c.pending ++ piece)
  ⟨chain, pending, c.length + piece.length⟩

def finish (c : Context) : String :=
  (c.chain.absorb (c.pending ++ padding c.length)).1.text

end Context

end Registry.Md5

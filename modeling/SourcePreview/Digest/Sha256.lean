import SourcePreview.Text.Utf8

/-!
# SHA-256

The message is padded to whole blocks of sixty-four bytes, and each block is mixed into a state of
eight words in sixty-four rounds.  The digest is the state, high bytes first.
-/

namespace SourcePreview.Sha256

/-- The words added in the rounds. -/
def roundWords : Array UInt32 :=
  #[0x428a2f98, 0x71374491, 0xb5c0fbcf, 0xe9b5dba5, 0x3956c25b, 0x59f111f1, 0x923f82a4,
    0xab1c5ed5, 0xd807aa98, 0x12835b01, 0x243185be, 0x550c7dc3, 0x72be5d74, 0x80deb1fe,
    0x9bdc06a7, 0xc19bf174, 0xe49b69c1, 0xefbe4786, 0x0fc19dc6, 0x240ca1cc, 0x2de92c6f,
    0x4a7484aa, 0x5cb0a9dc, 0x76f988da, 0x983e5152, 0xa831c66d, 0xb00327c8, 0xbf597fc7,
    0xc6e00bf3, 0xd5a79147, 0x06ca6351, 0x14292967, 0x27b70a85, 0x2e1b2138, 0x4d2c6dfc,
    0x53380d13, 0x650a7354, 0x766a0abb, 0x81c2c92e, 0x92722c85, 0xa2bfe8a1, 0xa81a664b,
    0xc24b8b70, 0xc76c51a3, 0xd192e819, 0xd6990624, 0xf40e3585, 0x106aa070, 0x19a4c116,
    0x1e376c08, 0x2748774c, 0x34b0bcb5, 0x391c0cb3, 0x4ed8aa4a, 0x5b9cca4f, 0x682e6ff3,
    0x748f82ee, 0x78a5636f, 0x84c87814, 0x8cc70208, 0x90befffa, 0xa4506ceb, 0xbef9a3f7,
    0xc67178f2]

/-- The eight words that a message is mixed into. -/
structure State where
  a : UInt32
  b : UInt32
  c : UInt32
  d : UInt32
  e : UInt32
  f : UInt32
  g : UInt32
  h : UInt32

/-- The state before the first block. -/
def State.initial : State :=
  ⟨0x6a09e667, 0xbb67ae85, 0x3c6ef372, 0xa54ff53a, 0x510e527f, 0x9b05688c, 0x1f83d9ab,
    0x5be0cd19⟩

/-- A word turned to the right. -/
def rotate (word count : UInt32) : UInt32 :=
  (word >>> count) ||| (word <<< (32 - count))

/-- One round with the sum of its message word and its round word. -/
def State.round (s : State) (word : UInt32) : State :=
  let sum₁ := rotate s.e 6 ^^^ rotate s.e 11 ^^^ rotate s.e 25
  let choice := (s.e &&& s.f) ^^^ (~~~s.e &&& s.g)
  let first := s.h + sum₁ + choice + word
  let sum₀ := rotate s.a 2 ^^^ rotate s.a 13 ^^^ rotate s.a 22
  let majority := (s.a &&& s.b) ^^^ (s.a &&& s.c) ^^^ (s.b &&& s.c)
  ⟨first + (sum₀ + majority), s.a, s.b, s.c, s.d + first, s.e, s.f, s.g⟩

/-- Two states added word by word. -/
def State.add (s t : State) : State :=
  ⟨s.a + t.a, s.b + t.b, s.c + t.c, s.d + t.d, s.e + t.e, s.f + t.f, s.g + t.g, s.h + t.h⟩

/-- The words of a block, high bytes first. -/
def blockWords : Bytes → Array UInt32 → Array UInt32
  | b₀ :: b₁ :: b₂ :: b₃ :: rest, words =>
    blockWords rest
      (words.push
        ((b₀.toUInt32 <<< 24) ||| (b₁.toUInt32 <<< 16) ||| (b₂.toUInt32 <<< 8) |||
          b₃.toUInt32))
  | _, words => words

/-- Extends the words of a block by so many more, each made from four before it. -/
def extendWords : (count : Nat) → Array UInt32 → Array UInt32
  | 0, words => words
  | count + 1, words =>
    let size := words.size
    let w₁₅ := words.getD (size - 15) 0
    let w₂ := words.getD (size - 2) 0
    let s₀ := rotate w₁₅ 7 ^^^ rotate w₁₅ 18 ^^^ (w₁₅ >>> 3)
    let s₁ := rotate w₂ 17 ^^^ rotate w₂ 19 ^^^ (w₂ >>> 10)
    extendWords count
      (words.push (words.getD (size - 16) 0 + s₀ + words.getD (size - 7) 0 + s₁))

/-- Mixes one block into the state. -/
def State.mix (state : State) (block : Bytes) : State :=
  let words := extendWords 48 (blockWords block #[])
  let mixed := (List.range 64).foldl
    (fun s index => s.round (words.getD index 0 + roundWords.getD index 0)) state
  state.add mixed

/-- Mixes so many blocks into the state. -/
def State.mixBlocks : (blocks : Nat) → State → Bytes → State
  | 0, state, _ => state
  | blocks + 1, state, bytes => mixBlocks blocks (state.mix (bytes.take 64)) (bytes.drop 64)

/-- The low eight bytes of a number, high bytes first. -/
def lengthBytes (number : Nat) : Bytes :=
  (List.range 8).map fun index => UInt8.ofNat (number >>> (8 * (7 - index)))

/-- The message, a one bit, zeros up to a whole block, and the number of bits of the message. -/
def pad (message : Bytes) : Bytes :=
  let zeros := (119 - message.length % 64) % 64
  message ++ 0x80 :: List.replicate zeros 0 ++ lengthBytes (8 * message.length)

/-- The four bytes of a word, high bytes first. -/
def wordBytes (word : UInt32) : Bytes :=
  [(word >>> 24).toUInt8, (word >>> 16).toUInt8, (word >>> 8).toUInt8, word.toUInt8]

/-- The bytes of a state. -/
def State.bytes (s : State) : Bytes :=
  wordBytes s.a ++ wordBytes s.b ++ wordBytes s.c ++ wordBytes s.d ++ wordBytes s.e ++
    wordBytes s.f ++ wordBytes s.g ++ wordBytes s.h

@[simp]
theorem State.length_bytes (s : State) : s.bytes.length = 32 := rfl

/-- The digest of a message. -/
def digest (message : Bytes) : Bytes :=
  let padded := pad message
  (State.initial.mixBlocks (padded.length / 64) padded).bytes

@[simp]
theorem length_digest (message : Bytes) : (digest message).length = 32 := rfl

end SourcePreview.Sha256

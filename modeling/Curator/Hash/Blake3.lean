/-!
The hash function BLAKE3, as far as the first eight bytes of the digest of a byte sequence.

The input is cut into chunks of 1024 bytes and these into blocks of 64. Chaining values of chunks
are combined pairwise up a tree whose left part is always the largest power of two.
-/

set_option autoImplicit false

namespace Curator.Blake3

abbrev Words (count : Nat) := Vector UInt32 count

def initial : Words 8 :=
  #v[0x6A09E667, 0xBB67AE85, 0x3C6EF372, 0xA54FF53A, 0x510E527F, 0x9B05688C, 0x1F83D9AB, 0x5BE0CD19]

def chunkStart : UInt32 := 1
def chunkEnd : UInt32 := 2
def parentFlag : UInt32 := 4
def rootFlag : UInt32 := 8

def rotateRight (word : UInt32) (count : UInt32) : UInt32 :=
  (word >>> count) ||| (word <<< (32 - count))

def mix (state : Words 16) (a b c d : Fin 16) (x y : UInt32) : Words 16 :=
  let a₁ := state[a] + state[b] + x
  let d₁ := rotateRight (state[d] ^^^ a₁) 16
  let c₁ := state[c] + d₁
  let b₁ := rotateRight (state[b] ^^^ c₁) 12
  let a₂ := a₁ + b₁ + y
  let d₂ := rotateRight (d₁ ^^^ a₂) 8
  let c₂ := c₁ + d₂
  let b₂ := rotateRight (b₁ ^^^ c₂) 7
  (((state.set a a₂).set b b₂).set c c₂).set d d₂

def steps : List (Fin 16 × Fin 16 × Fin 16 × Fin 16 × Fin 16 × Fin 16) :=
  [(0, 4, 8, 12, 0, 1), (1, 5, 9, 13, 2, 3), (2, 6, 10, 14, 4, 5), (3, 7, 11, 15, 6, 7),
    (0, 5, 10, 15, 8, 9), (1, 6, 11, 12, 10, 11), (2, 7, 8, 13, 12, 13), (3, 4, 9, 14, 14, 15)]

def round (state message : Words 16) : Words 16 :=
  steps.foldl (fun state (a, b, c, d, i, j) => mix state a b c d message[i] message[j]) state

def permute (message : Words 16) : Words 16 :=
  #v[message[2], message[6], message[3], message[10], message[7], message[0], message[4],
    message[13], message[1], message[11], message[12], message[5], message[9], message[14],
    message[15], message[8]]

def rounds : Nat → Words 16 → Words 16 → Words 16
  | 0, state, _ => state
  | count + 1, state, message => rounds count (round state message) (permute message)

structure Node where
  chaining : Words 8
  block : Words 16
  counter : UInt64
  length : UInt32
  flags : UInt32

def Node.compress (node : Node) (flags : UInt32) : Words 8 :=
  let start : Words 16 := node.chaining ++
    #v[initial[0], initial[1], initial[2], initial[3], node.counter.toUInt32,
      (node.counter >>> 32).toUInt32, node.length, node.flags ||| flags]
  let state := rounds 7 start node.block
  Vector.ofFn fun (i : Fin 8) => state[i] ^^^ state[i.val + 8]

def wordAt (bytes : List UInt8) : UInt32 :=
  (bytes.take 4).foldr (fun byte word => (word <<< 8) ||| byte.toUInt32) 0

def blockOf (bytes : List UInt8) : Words 16 :=
  Vector.ofFn fun (i : Fin 16) => wordAt (bytes.drop (4 * i.val))

-- The last block of a chunk, the earlier ones taken into its chaining value. `blocks` bounds the
-- number of blocks that follow.
def chunkNode (counter : UInt64) : Nat → Words 8 → UInt32 → List UInt8 → Node
  | 0, chaining, start, bytes => ⟨chaining, blockOf bytes, counter, bytes.length.toUInt32, start ||| chunkEnd⟩
  | blocks + 1, chaining, start, bytes =>
      if bytes.length ≤ 64 then
        ⟨chaining, blockOf bytes, counter, bytes.length.toUInt32, start ||| chunkEnd⟩
      else
        let node : Node := ⟨chaining, blockOf bytes, counter, 64, start⟩
        chunkNode counter blocks (node.compress 0) 0 (bytes.drop 64)

def chunk (counter : UInt64) (bytes : List UInt8) : Node :=
  chunkNode counter 15 initial chunkStart bytes

def parent (left right : Words 8) : Node := ⟨initial, left ++ right, 0, 64, parentFlag⟩

-- The tree over the chunks from number `first` on; `depth` bounds its height.
def tree : Nat → Nat → List UInt8 → Node
  | 0, first, bytes => chunk first.toUInt64 bytes
  | depth + 1, first, bytes =>
      if bytes.length ≤ 1024 then chunk first.toUInt64 bytes
      else
        let chunks := (bytes.length + 1023) / 1024
        let left := Nat.pow 2 (chunks - 1).log2
        parent
          ((tree depth first (bytes.take (1024 * left))).compress 0)
          ((tree depth (first + left) (bytes.drop (1024 * left))).compress 0)

def reverseBytes (word : UInt32) : UInt32 :=
  let mask : UInt32 := 0xFF00
  let second : UInt32 := (word &&& mask) <<< 8
  let third : UInt32 := (word >>> 8) &&& mask
  (word <<< 24) ||| second ||| third ||| (word >>> 24)

def leading (bytes : List UInt8) : UInt64 :=
  let digest := (tree 54 0 bytes).compress rootFlag
  (reverseBytes digest[0]).toUInt64 <<< 32 ||| (reverseBytes digest[1]).toUInt64

end Curator.Blake3

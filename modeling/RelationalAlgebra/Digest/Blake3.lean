import RelationalAlgebra.Digest.Hex

/-!
# The BLAKE3 digest

The unkeyed BLAKE3 hash with 32 bytes of output. The input is cut into chunks of 1024 bytes and
these into blocks of 64; each block is compressed into a chaining value of eight words. The
chaining values of the chunks are the leaves of a binary tree, in which a left subtree is always
full, and the digest is read from the compression at its root.
-/

namespace RelationalAlgebra

namespace Blake3

/-- Eight words that a compression passes on. -/
abbrev Chaining := Vector UInt32 8

/-- The sixteen words of a block. -/
abbrev Block := Vector UInt32 16

/-- The initial chaining value. -/
def initial : Chaining :=
  #v[0x6A09E667, 0xBB67AE85, 0x3C6EF372, 0xA54FF53A, 0x510E527F, 0x9B05688C, 0x1F83D9AB,
     0x5BE0CD19]

/-- Where each word of a block goes between two rounds. -/
def schedule : Vector (Fin 16) 16 :=
  #v[2, 6, 3, 10, 7, 0, 4, 13, 1, 11, 12, 5, 9, 14, 15, 8]

def chunkStart : UInt32 := 1
def chunkEnd : UInt32 := 2
def parentFlag : UInt32 := 4
def rootFlag : UInt32 := 8

/-- A word rotated to the right. -/
def rotate (x : UInt32) (n : UInt32) : UInt32 :=
  (x >>> n) ||| (x <<< (32 - n))

/-- Mixes two words of a block into four words of the state. -/
def mix (state : Block) (a b c d : Fin 16) (x y : UInt32) : Block :=
  let state := state.set a (state[a] + state[b] + x)
  let state := state.set d (rotate (state[d] ^^^ state[a]) 16)
  let state := state.set c (state[c] + state[d])
  let state := state.set b (rotate (state[b] ^^^ state[c]) 12)
  let state := state.set a (state[a] + state[b] + y)
  let state := state.set d (rotate (state[d] ^^^ state[a]) 8)
  let state := state.set c (state[c] + state[d])
  state.set b (rotate (state[b] ^^^ state[c]) 7)

/-- One round: the columns of the state, then its diagonals. -/
def round (state block : Block) : Block :=
  let state := mix state 0 4 8 12 block[0] block[1]
  let state := mix state 1 5 9 13 block[2] block[3]
  let state := mix state 2 6 10 14 block[4] block[5]
  let state := mix state 3 7 11 15 block[6] block[7]
  let state := mix state 0 5 10 15 block[8] block[9]
  let state := mix state 1 6 11 12 block[10] block[11]
  let state := mix state 2 7 8 13 block[12] block[13]
  mix state 3 4 9 14 block[14] block[15]

/-- Some rounds, with the words of the block rearranged between them. -/
def rounds : Nat → Block → Block → Block
  | 0, state, _ => state
  | count + 1, state, block => rounds count (round state block) (schedule.map fun i => block[i])

/-- A compression that is still to be done: a block with all that goes into it. -/
structure Node where
  chaining : Chaining
  block : Block
  counter : UInt64
  blockLength : UInt32
  flags : UInt32

/-- The chaining value of a node, with further flags. -/
def Node.compress (node : Node) (flags : UInt32) : Chaining :=
  let tail : Vector UInt32 4 :=
    #v[node.counter.toUInt32, (node.counter >>> 32).toUInt32, node.blockLength,
       node.flags ||| flags]
  let start : Block := node.chaining ++ (initial.take 4 ++ tail)
  let state := rounds 7 start node.block
  Vector.ofFn fun i : Fin 8 => state[i.val] ^^^ state[i.val + 8]

/-- The word at a position of a block of bytes, the least byte first. Missing bytes are zero. -/
def wordAt (bytes : Array UInt8) (i : Nat) : UInt32 :=
  let byte (k : Nat) : UInt32 := (bytes[4 * i + k]?.getD 0).toUInt32
  byte 0 ||| (byte 1 <<< 8) ||| (byte 2 <<< 16) ||| (byte 3 <<< 24)

/-- The words of at most 64 bytes. -/
def blockOf (bytes : List UInt8) : Block :=
  let bytes := bytes.toArray
  Vector.ofFn fun i : Fin 16 => wordAt bytes i

/-- A list cut into pieces of a size, of which the last may be shorter. The empty list is one
piece. Lists of up to `count` such pieces are cut. -/
def pieces (size : Nat) : (count : Nat) → List UInt8 → List (List UInt8)
  | 0, bytes => [bytes]
  | count + 1, bytes =>
    let rest := bytes.drop size
    if rest.isEmpty then [bytes] else bytes.take size :: pieces size count rest

/-- The last node of a chunk, given the blocks that are left. -/
def lastOfChunk (counter : UInt64) (chaining : Chaining) (flags : UInt32) :
    List (List UInt8) → Node
  | [] => ⟨chaining, blockOf [], counter, 0, flags ||| chunkEnd⟩
  | [block] =>
    ⟨chaining, blockOf block, counter, UInt32.ofNat block.length, flags ||| chunkEnd⟩
  | block :: blocks =>
    let node : Node := ⟨chaining, blockOf block, counter, UInt32.ofNat block.length, flags⟩
    lastOfChunk counter (node.compress 0) 0 blocks

/-- The node of a chunk. -/
def chunkNode (counter : Nat) (chunk : List UInt8) : Node :=
  lastOfChunk (UInt64.ofNat counter) initial chunkStart (pieces 64 16 chunk)

/-- The node above two nodes. -/
def parentNode (left right : Node) : Node :=
  ⟨initial, left.compress 0 ++ right.compress 0, 0, 64, parentFlag⟩

/-- One level of the tree above a list of nodes. A last node without a partner stays. -/
def pairUp : List Node → List Node
  | left :: right :: rest => parentNode left right :: pairUp rest
  | nodes => nodes

/-- The root of the tree over some nodes, of which there are at most `2 ^ height`. -/
def rootNode : (height : Nat) → Node → List Node → Node
  | 0, node, _ => node
  | _ + 1, node, [] => node
  | height + 1, left, right :: rest => rootNode height (parentNode left right) (pairUp rest)

/-- The digest of a list of bytes. -/
def digest (bytes : List UInt8) : Digest :=
  let chunks := pieces 1024 bytes.length bytes
  let root :=
    match chunks.mapIdx chunkNode with
    | [] => chunkNode 0 []
    | node :: nodes => rootNode chunks.length node nodes
  let words := root.compress rootFlag
  ⟨Vector.ofFn fun i : Fin 32 => (words[i.val / 4] >>> UInt32.ofNat (8 * (i.val % 4))).toUInt8⟩

end Blake3

end RelationalAlgebra

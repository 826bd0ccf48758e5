import SchemaCatalog.Text.Hex

/-!
# The BLAKE3 digest

A byte string is cut into chunks of 1024 bytes and a chunk into blocks of 64. The blocks of
a chunk are chained by the compression function, and the chunks are the leaves of a binary
tree whose left subtrees are complete. The digest is the compression of the root, marked as
such.
-/

namespace SchemaCatalog.Digest

namespace Blake3

/-- Eight words: the chaining value of a node. -/
abbrev Chain := Vector UInt32 8

/-- Sixteen words: a message block or the state of the compression. -/
abbrev Block := Vector UInt32 16

/-- The chaining value that starts every chunk. -/
def start : Chain :=
  #v[0x6A09E667, 0xBB67AE85, 0x3C6EF372, 0xA54FF53A, 0x510E527F, 0x9B05688C, 0x1F83D9AB, 0x5BE0CD19]

/-- Marks the first block of a chunk. -/
def chunkStart : UInt32 := 1

/-- Marks the last block of a chunk. -/
def chunkEnd : UInt32 := 2

/-- Marks a node with two children. -/
def parent : UInt32 := 4

/-- Marks the root. -/
def root : UInt32 := 8

/-! ### Compression -/

/-- Rotates a word to the right. -/
def rotateRight (x : UInt32) (n : UInt32) : UInt32 := (x >>> n) ||| (x <<< (32 - n))

/-- Mixes two message words into four words of the state. -/
def mix (s : Block) (a b c d : Fin 16) (x y : UInt32) : Block :=
  let va := s[a] + s[b] + x
  let vd := rotateRight (s[d] ^^^ va) 16
  let vc := s[c] + vd
  let vb := rotateRight (s[b] ^^^ vc) 12
  let va := va + vb + y
  let vd := rotateRight (vd ^^^ va) 8
  let vc := vc + vd
  let vb := rotateRight (vb ^^^ vc) 7
  (((s.set a va).set b vb).set c vc).set d vd

/-- One round: the columns of the state, then its diagonals. -/
def round (s m : Block) : Block :=
  let s := mix s 0 4 8 12 m[0] m[1]
  let s := mix s 1 5 9 13 m[2] m[3]
  let s := mix s 2 6 10 14 m[4] m[5]
  let s := mix s 3 7 11 15 m[6] m[7]
  let s := mix s 0 5 10 15 m[8] m[9]
  let s := mix s 1 6 11 12 m[10] m[11]
  let s := mix s 2 7 8 13 m[12] m[13]
  mix s 3 4 9 14 m[14] m[15]

/-- The order of the message words in the next round. -/
def permute (m : Block) : Block :=
  #v[m[2], m[6], m[3], m[10], m[7], m[0], m[4], m[13],
    m[1], m[11], m[12], m[5], m[9], m[14], m[15], m[8]]

/-- Several rounds, with the message words permuted between them. -/
def rounds : Nat → Block → Block → Block
  | 0, s, _ => s
  | n + 1, s, m => rounds n (round s m) (permute m)

/-- A node of the tree before its compression. -/
structure Node where
  /-- The chaining value that enters. -/
  chain : Chain
  /-- The message block. -/
  block : Block
  /-- The number of the chunk. -/
  counter : UInt64
  /-- The number of message bytes in the block. -/
  length : UInt32
  /-- The marks. -/
  flags : UInt32

/-- The chaining value that a node hands on. -/
def Node.compress (n : Node) : Chain :=
  let s : Block :=
    #v[n.chain[0], n.chain[1], n.chain[2], n.chain[3], n.chain[4], n.chain[5], n.chain[6],
      n.chain[7], start[0], start[1], start[2], start[3], n.counter.toUInt32,
      (n.counter >>> 32).toUInt32, n.length, n.flags]
  let s := rounds 7 s n.block
  Vector.ofFn fun i : Fin 8 => s[i.val] ^^^ s[i.val + 8]

/-! ### Chunks and the tree -/

/-- The word at a position of a byte string, low byte first; bytes beyond the end are zero. -/
def wordAt (bytes : ByteArray) (i : Nat) : UInt32 :=
  let byte (k : Nat) : UInt32 := ((bytes.data[i + k]?).getD 0).toUInt32
  byte 0 ||| (byte 1 <<< 8) ||| (byte 2 <<< 16) ||| (byte 3 <<< 24)

/-- The message block at a position of a byte string. -/
def blockAt (bytes : ByteArray) (i : Nat) : Block :=
  Vector.ofFn fun k : Fin 16 => wordAt bytes (i + 4 * k.val)

/-- The last node of a chunk, given the chaining value of the blocks before it and the number
of blocks that follow the block at position `i`. -/
def chunkFrom (bytes : ByteArray) (counter : UInt64) : Nat → Nat → Chain → UInt32 → Node
  | 0, i, chain, flags =>
    ⟨chain, blockAt bytes i, counter, (bytes.size - i).toUInt32, flags ||| chunkEnd⟩
  | more + 1, i, chain, flags =>
    chunkFrom bytes counter more (i + 64)
      (Node.compress ⟨chain, blockAt bytes i, counter, 64, flags⟩) 0

/-- The node of a chunk. -/
def chunk (bytes : ByteArray) (counter : Nat) : Node :=
  chunkFrom bytes counter.toUInt64 ((bytes.size - 1) / 64) 0 start chunkStart

/-- The node above two others. -/
def join (left right : Node) : Node :=
  let l := left.compress
  let r := right.compress
  ⟨start, l ++ r, 0, 64, parent⟩

/-- Joins neighbours; a last node without neighbour is kept. -/
def joinNeighbours : List Node → List Node
  | a :: b :: rest => join a b :: joinNeighbours rest
  | rest => rest

/-- The root of the tree over the first node and the rest, joined level by level. -/
def rootOf : Nat → Node → List Node → Node
  | 0, n, _ => n
  | _ + 1, n, [] => n
  | levels + 1, n, m :: rest => rootOf levels (join n m) (joinNeighbours rest)

/-- The chunks after the first. -/
def laterChunks (bytes : ByteArray) : List Node :=
  (List.range ((bytes.size - 1) / 1024)).map fun i =>
    chunk (bytes.extract ((i + 1) * 1024) ((i + 2) * 1024)) (i + 1)

/-- The digest of a byte string: 32 bytes. -/
def digest (bytes : ByteArray) : List UInt8 :=
  let later := laterChunks bytes
  let top := rootOf later.length (chunk (bytes.extract 0 1024) 0) later
  let words : Chain := Node.compress { top with flags := top.flags ||| root }
  words.toList.flatMap fun (w : UInt32) =>
    [w.toUInt8, (w >>> 8).toUInt8, (w >>> 16).toUInt8, (w >>> 24).toUInt8]

end Blake3

/-- The digest of the UTF-8 bytes of a text, in hexadecimal digits. -/
def ofText (s : String) : String := Text.hex (Blake3.digest s.toUTF8)

end SchemaCatalog.Digest

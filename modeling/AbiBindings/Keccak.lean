/-!
# The Keccak-256 digest

A sponge over a state of 25 words of 64 bits.  The message is padded to blocks
of 17 words, each block is added to the state, and the permutation `permute`
mixes the state after each.  The digest is the first four words of the state,
least significant byte first.  Word `(x, y)` of the state stands at index
`x + 5 * y`.
-/

namespace AbiBindings.Keccak

/-- The state of the sponge. -/
abbrev State := Vector UInt64 25

/-- The word at column `x` and row `y`, both counted modulo five. -/
def State.lane (s : State) (x y : Nat) : UInt64 :=
  s[x % 5 + 5 * (y % 5)]

/-- The state whose word at column `x` and row `y` is `f x y`. -/
def State.build (f : Nat → Nat → UInt64) : State :=
  Vector.ofFn fun i => f (i.val % 5) (i.val / 5)

/-- The word turned left by `n < 64` bits. -/
def turn (w : UInt64) (n : Nat) : UInt64 :=
  if n = 0 then w else (w <<< n.toUInt64) ||| (w >>> (64 - n).toUInt64)

/-- How far each word is turned, by index. -/
def turns : Vector Nat 25 :=
  #v[0, 1, 62, 28, 27,
    36, 44, 6, 55, 20,
    3, 10, 43, 25, 39,
    41, 45, 15, 21, 8,
    18, 2, 61, 56, 14]

/-- The constants of the 24 rounds. -/
def roundConstants : List UInt64 :=
  [0x0000000000000001, 0x0000000000008082, 0x800000000000808a, 0x8000000080008000,
    0x000000000000808b, 0x0000000080000001, 0x8000000080008081, 0x8000000000008009,
    0x000000000000008a, 0x0000000000000088, 0x0000000080008009, 0x000000008000000a,
    0x000000008000808b, 0x800000000000008b, 0x8000000000008089, 0x8000000000008003,
    0x8000000000008002, 0x8000000000000080, 0x000000000000800a, 0x800000008000000a,
    0x8000000080008081, 0x8000000000008080, 0x0000000080000001, 0x8000000080008008]

/-- Each word takes in the parities of the column before it and of the column
behind it. -/
def theta (s : State) : State :=
  let parity : Vector UInt64 5 := Vector.ofFn fun x =>
    s.lane x 0 ^^^ s.lane x 1 ^^^ s.lane x 2 ^^^ s.lane x 3 ^^^ s.lane x 4
  let column := fun x : Nat => parity[x % 5]
  State.build fun x y => s.lane x y ^^^ column (x + 4) ^^^ turn (column (x + 1)) 1

/-- Each word is turned and moves to its new place. -/
def rhoPi (s : State) : State :=
  State.build fun x y =>
    let fromX := (x + 3 * y) % 5
    turn (s.lane fromX x) turns[fromX % 5 + 5 * (x % 5)]

/-- Each word takes in the two words to its right. -/
def chi (s : State) : State :=
  State.build fun x y => s.lane x y ^^^ (~~~ s.lane (x + 1) y &&& s.lane (x + 2) y)

/-- The first word takes in the constant of the round. -/
def iota (constant : UInt64) (s : State) : State :=
  s.set 0 (s[0] ^^^ constant)

/-- The 24 rounds. -/
def permute (s : State) : State :=
  roundConstants.foldl (fun s constant => iota constant (chi (rhoPi (theta s)))) s

/-- The number of bytes of a block. -/
def blockSize : Nat := 136

/-- The message followed by a one bit, zeros, and a one bit at the end of its
last block. -/
def pad (message : List UInt8) : List UInt8 :=
  let missing := blockSize - message.length % blockSize
  if missing = 1 then message ++ [0x81]
  else message ++ 0x01 :: (List.replicate (missing - 2) 0 ++ [0x80])

/-- The word of eight bytes, least significant first. -/
def word (bytes : List UInt8) : UInt64 :=
  bytes.foldr (fun b w => w <<< 8 ||| b.toUInt64) 0

/-- The first `n` words of the bytes. -/
def words : Nat → List UInt8 → List UInt64
  | 0, _ => []
  | n + 1, bytes => word (bytes.take 8) :: words n (bytes.drop 8)

/-- The state after taking in one block. -/
def absorb (s : State) (block : List UInt8) : State :=
  let added := (words 17 block).toArray
  permute (State.build fun x y => s.lane x y ^^^ added.getD (x + 5 * y) 0)

/-- The state after taking in `n` blocks of the bytes. -/
def absorbBlocks : Nat → State → List UInt8 → State
  | 0, s, _ => s
  | n + 1, s, bytes => absorbBlocks n (absorb s (bytes.take blockSize)) (bytes.drop blockSize)

/-- The eight bytes of a word, least significant first. -/
def wordBytes (w : UInt64) : List UInt8 :=
  (List.range 8).map fun i => (w >>> (8 * i).toUInt64).toUInt8

/-- The 32 bytes of the digest. -/
def digest (message : List UInt8) : List UInt8 :=
  let padded := pad message
  let s := absorbBlocks (padded.length / blockSize) (Vector.replicate 25 0) padded
  [s[0], s[1], s[2], s[3]].flatMap wordBytes

end AbiBindings.Keccak

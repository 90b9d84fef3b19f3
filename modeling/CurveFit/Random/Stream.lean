/-!
# A stream of random words

ChaCha with twelve rounds, keyed from a 64-bit seed.  The words of consecutive blocks form the
stream; a 64-bit word is two of them, the low half first.
-/

namespace CurveFit.Random

/-- A word rotated left. -/
def rotateLeft (x : UInt32) (n : UInt32) : UInt32 := (x <<< n) ||| (x >>> (32 - n))

/-- A word rotated right. -/
def rotateRight (x : UInt32) (n : UInt32) : UInt32 := (x >>> n) ||| (x <<< ((32 - n) % 32))

/-- The sixteen words of a block. -/
abbrev Block := Vector UInt32 16

/-- The quarter round on four words of a block. -/
def quarterRound (s : Block) (a b c d : Fin 16) : Block :=
  let s := s.set a (s.get a + s.get b)
  let s := s.set d (rotateLeft (s.get d ^^^ s.get a) 16)
  let s := s.set c (s.get c + s.get d)
  let s := s.set b (rotateLeft (s.get b ^^^ s.get c) 12)
  let s := s.set a (s.get a + s.get b)
  let s := s.set d (rotateLeft (s.get d ^^^ s.get a) 8)
  let s := s.set c (s.get c + s.get d)
  s.set b (rotateLeft (s.get b ^^^ s.get c) 7)

/-- A round on the columns followed by one on the diagonals. -/
def doubleRound (s : Block) : Block :=
  let s := quarterRound s 0 4 8 12
  let s := quarterRound s 1 5 9 13
  let s := quarterRound s 2 6 10 14
  let s := quarterRound s 3 7 11 15
  let s := quarterRound s 0 5 10 15
  let s := quarterRound s 1 6 11 12
  let s := quarterRound s 2 7 8 13
  quarterRound s 3 4 9 14

/-- The key: eight words drawn from a permuted congruential generator that starts at the seed. -/
def keyWords : Nat → UInt64 → List UInt32
  | 0, _ => []
  | n + 1, state =>
    let state := state * 6364136223846793005 + 11634580027462260723
    let word := (((state >>> 18) ^^^ state) >>> 27).toUInt32
    rotateRight word (state >>> 59).toUInt32 :: keyWords n state

/-- A block of the stream: constants, key, block number, and two zeros, mixed by six double rounds
and added to themselves. -/
def block (key : List UInt32) (number : UInt64) : List UInt32 :=
  let constants : List UInt32 := [0x61707865, 0x3320646e, 0x79622d32, 0x6b206574]
  let counter := [number.toUInt32, (number >>> 32).toUInt32, 0, 0]
  let input : Block := Vector.ofFn fun i => (constants ++ key ++ counter).getD i 0
  let mixed := (List.range 6).foldl (fun s _ => doubleRound s) input
  (Vector.zipWith (· + ·) mixed input).toList

/-- A place in the stream. -/
structure Stream where
  key : List UInt32
  /-- The number of the next block. -/
  next : UInt64
  /-- The words left of the current block. -/
  pending : List UInt32

/-- The start of the stream of a seed. -/
def Stream.ofSeed (seed : UInt64) : Stream := ⟨keyWords 8 seed, 0, []⟩

/-- The next 32-bit word. -/
def Stream.word (s : Stream) : UInt32 × Stream :=
  match s.pending with
  | w :: rest => (w, { s with pending := rest })
  | [] =>
    match block s.key s.next with
    | w :: rest => (w, { s with next := s.next + 1, pending := rest })
    | [] => (0, { s with next := s.next + 1 })

/-- The next 64-bit word. -/
def Stream.longWord (s : Stream) : UInt64 × Stream :=
  let (low, s) := s.word
  let (high, s) := s.word
  ((high.toUInt64 <<< 32) ||| low.toUInt64, s)

end CurveFit.Random

/-!
# Pseudorandom words

The ChaCha stream with eight rounds under a key of 256 bits, a zero nonce and
a block counter of 64 bits. A seed of 64 bits is stretched to a key by a small
permuted congruential generator.
-/

namespace Rulebook.ChaCha

/-- The sixteen words of a block. -/
abbrev Block := Vector UInt32 16

/-- Turns the bits of a word to the left. -/
def turnLeft (x : UInt32) (bits : UInt32) : UInt32 := (x <<< bits) ||| (x >>> (32 - bits))

/-- Turns the bits of a word to the right. -/
def turnRight (x : UInt32) (bits : UInt32) : UInt32 := (x >>> bits) ||| (x <<< ((32 - bits) % 32))

/-- Mixes four words of a block. -/
def quarterRound (v : Block) (a b c d : Fin 16) : Block :=
  let v := v.set a (v[a] + v[b])
  let v := v.set d (turnLeft (v[d] ^^^ v[a]) 16)
  let v := v.set c (v[c] + v[d])
  let v := v.set b (turnLeft (v[b] ^^^ v[c]) 12)
  let v := v.set a (v[a] + v[b])
  let v := v.set d (turnLeft (v[d] ^^^ v[a]) 8)
  let v := v.set c (v[c] + v[d])
  v.set b (turnLeft (v[b] ^^^ v[c]) 7)

/-- Mixes the columns of a block and then its diagonals. -/
def doubleRound (v : Block) : Block :=
  let v := quarterRound v 0 4 8 12
  let v := quarterRound v 1 5 9 13
  let v := quarterRound v 2 6 10 14
  let v := quarterRound v 3 7 11 15
  let v := quarterRound v 0 5 10 15
  let v := quarterRound v 1 6 11 12
  let v := quarterRound v 2 7 8 13
  quarterRound v 3 4 9 14

/-- The block of a key and a counter before it is mixed. -/
def start (key : Vector UInt32 8) (counter : Nat) : Block :=
  #v[0x61707865, 0x3320646e, 0x79622d32, 0x6b206574,
     key[0], key[1], key[2], key[3], key[4], key[5], key[6], key[7],
     UInt32.ofNat counter, UInt32.ofNat (counter >>> 32), 0, 0]

/-- The block of a key and a counter: four double rounds, added to the start. -/
def block (key : Vector UInt32 8) (counter : Nat) : Block :=
  let v := start key counter
  v.zipWith (· + ·) (doubleRound (doubleRound (doubleRound (doubleRound v))))

/-- The word at a place of the stream. -/
def word (key : Vector UInt32 8) (place : Nat) : UInt32 :=
  (block key (place / 16)).get ⟨place % 16, Nat.mod_lt _ (by decide)⟩

/-- The pair of words at a place of the stream, counted in pairs, the low word first. -/
def word64 (key : Vector UInt32 8) (place : Nat) : UInt64 :=
  (word key (2 * place)).toUInt64 ||| ((word key (2 * place + 1)).toUInt64 <<< 32)

/-- One step of the generator that stretches seeds. -/
def stretch (state : UInt64) : UInt64 := state * 6364136223846793005 + 11634580027462260723

/-- The word that a state of that generator yields. -/
def stretched (state : UInt64) : UInt32 :=
  turnRight (((state >>> 18) ^^^ state) >>> 27).toUInt32 (state >>> 59).toUInt32

/-- The state of that generator after some steps. -/
def stretchTimes (state : UInt64) : Nat → UInt64
  | 0 => state
  | steps + 1 => stretch (stretchTimes state steps)

/-- The key of a seed. -/
def keyOfSeed (seed : UInt64) : Vector UInt32 8 :=
  Vector.ofFn fun i => stretched (stretchTimes seed (i + 1))

end Rulebook.ChaCha

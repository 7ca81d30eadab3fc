import Rulebook.Integer
import Rulebook.Random
import Rulebook.Random.ChaCha

/-!
# Seeded random integers

An integer of an interval is drawn by scaling a random word of 64 bits to the
width of the interval. Words whose remainder would favour some integers over
others are refused, and the next word is tried; each word that is accepted then
stands for an integer that exactly as many other words stand for.
-/

namespace Rulebook

/-- The width of an interval: how many integers lie in it. -/
def intervalWidth (low high : Int64) : Nat := (high.toInt - low.toInt + 1).toNat

/-- The greatest remainder that is accepted: the width, shifted up until it fills 64 bits, less
one. -/
def acceptedZone (width : Nat) : Nat := (width <<< (63 - width.log2)) - 1

/-- The integer of an interval that a word stands for, unless the word is refused. An interval
of all integers takes every word as it is. -/
def ofWord? (low high : Int64) (word : UInt64) : Option Int64 :=
  let width := intervalWidth low high
  if width = limit64 then some word.toInt64
  else
    let product := word.toNat * width
    if product % limit64 ≤ acceptedZone width then
      some (Int64.ofInt (low.toInt + (product / limit64 : Nat)))
    else none

/-- A generator of random integers that is fixed by its seed. -/
structure SeededRandom where
  seed : UInt64
  /-- How many words of 64 bits have been used. -/
  used : Nat := 0
deriving DecidableEq, Repr, Inhabited

namespace SeededRandom

/-- The generator of a seed, from which nothing has been drawn. -/
def ofSeed (seed : UInt64) : SeededRandom := { seed }

/-- The next word and the generator after it. -/
def next (generator : SeededRandom) : UInt64 × SeededRandom :=
  (ChaCha.word64 (ChaCha.keyOfSeed generator.seed) generator.used,
    { generator with used := generator.used + 1 })

/-- Draws from an interval: one word after the other is tried until one is accepted. Words are
tried for as long as it takes; no more than half of all words are ever refused. -/
def draw (low high : Int64) (generator : SeededRandom) : Int64 × SeededRandom :=
  let (word, after) := generator.next
  match ofWord? low high word with
  | some drawn => (drawn, after)
  | none => after |>.draw low high
partial_fixpoint

instance : RandomSource SeededRandom where
  draw := SeededRandom.draw

end SeededRandom

end Rulebook

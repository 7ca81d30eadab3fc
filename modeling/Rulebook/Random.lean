/-!
# Random sources

Rules draw their random integers from a source that the host chooses: a seeded
generator in a game, a fixed answer in a test.
-/

namespace Rulebook

/-- A source of random integers, whose state is a `ρ`. -/
class RandomSource (ρ : Type) where
  /-- Draws an integer between `low` and `high`, both included. Callers ask with `low ≤ high`. -/
  draw : (low high : Int64) → ρ → Int64 × ρ

end Rulebook

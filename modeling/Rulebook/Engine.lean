import Rulebook.Config
import Rulebook.Dispatch

/-!
# The engine

An engine holds what outlives a single occurrence: the variants, the settings
and the random source. The scenario and the host belong to others and are
handed in each time.
-/

namespace Rulebook

/-- The variants, the settings and the random source. -/
structure Engine (ρ : Type) where
  registry : Registry
  config : Config
  random : ρ

namespace Engine

variable {σ ρ : Type} [Services σ] [RandomSource ρ]

/-- An engine with the given parts. A depth of 0 is raised to 1. -/
def create (registry : Registry) (config : Config) (random : ρ) : Engine ρ :=
  ⟨registry, config.withMaxDepth config.maxDepth, random⟩

/-- Registers one more variant, if it is sound and its name is free. -/
def register (engine : Engine ρ) (variant : Variant) : Except Rejection (Engine ρ) := do
  return { engine with registry := ← engine.registry.register variant }

/-- Handles an occurrence. -/
def dispatch (engine : Engine ρ) (scenario : Option Scenario) (services : σ)
    (occurrence : Occurrence) : Report × Engine ρ × σ :=
  let (report, host) :=
    Rulebook.dispatch engine.registry engine.config.maxDepth scenario occurrence
      ⟨services, engine.random⟩
  (report, { engine with random := host.random }, host.services)

/-- Evaluates one node outside of any occurrence, as for a preview. -/
def evaluate (engine : Engine ρ) (scenario : Scenario) (services : σ) (facts : Facts)
    (node : NodeId) : Except EvalError Value × Engine ρ × σ :=
  let scene : Scene := ⟨engine.registry, scenario, facts⟩
  let (result, host) :=
    (scene.evaluate engine.config.maxDepth node).runOn (⟨services, engine.random⟩ : Host σ ρ)
  (result, { engine with random := host.random }, host.services)

end Engine

end Rulebook

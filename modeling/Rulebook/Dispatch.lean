import Rulebook.Evaluation

/-!
# Handling an occurrence

Triggers are visited in the order of the scenario. One that is enabled and
listens for the occurrence has its conditions checked in order, up to the first
that does not hold; if all hold, every action is attempted once, whatever
becomes of the ones before it. Errors never leave the report.
-/

namespace Rulebook

/-- How a trigger ended. -/
inductive Status where
  /-- The conditions held and every action was attempted. -/
  | done
  /-- A condition did not hold. -/
  | failed
  /-- A condition could not be evaluated. -/
  | errored (error : EvalError)
deriving DecidableEq

/-- An action that did not complete. -/
structure ActionFailure where
  node : NodeId
  error : EvalError
deriving DecidableEq

/-- What became of one trigger that the occurrence concerned. -/
structure Outcome where
  trigger : TriggerId
  status : Status
  /-- The number of conditions evaluated, the one that ended the check included. -/
  conditionsChecked : Nat
  /-- The number of actions that completed. -/
  actionsExecuted : Nat
  /-- The actions that did not, in the order in which they were attempted. -/
  failures : List ActionFailure
deriving DecidableEq

/-- Everything that handling one occurrence did. -/
structure Report where
  kind : OccurrenceKind
  /-- Whether there was no scenario to handle it. -/
  dropped : Bool := false
  /-- One outcome for each trigger concerned, in the order of the scenario. -/
  outcomes : List Outcome := []
deriving DecidableEq

namespace Report

/-- The outcome of a trigger, if the occurrence concerned it. -/
def outcome? (report : Report) (id : TriggerId) : Option Outcome :=
  report.outcomes.find? fun outcome => outcome.trigger == id

/-- The triggers whose actions were attempted. -/
def fired (report : Report) : List TriggerId :=
  (report.outcomes.filter fun outcome => outcome.status == .done).map (·.trigger)

/-- The number of actions that completed in all. -/
def actionsExecuted (report : Report) : Nat :=
  report.outcomes.foldr (fun outcome total => outcome.actionsExecuted + total) 0

end Report

namespace Scene

variable {σ ρ : Type} [Services σ] [RandomSource ρ]

/-- The parameter that narrows an event down to one region. -/
def regionParam : String := "region"

/-- Whether an event listens for the occurrence at hand. If the occurrence names a region, an
event that can name one must name the same. -/
def hears (scene : Scene) (limit : Nat) (event : NodeId) (host : Host σ ρ) : Bool × Host σ ρ :=
  match scene.scenario.forest.get? event with
  | none => (false, host)
  | some node =>
    match scene.registry.get? node.variant with
    | none => (false, host)
    | some variant =>
      if variant.listensTo = some scene.facts.kind then
        match scene.facts.region, variant.param? regionParam with
        | some region, some _ =>
          match (scene.inspect limit node (Script.regionArg regionParam)).runOn host with
          | (.ok named, after) => (named == region, after)
          | (.error _, after) => (false, after)
        | _, _ => (true, host)
      else (false, host)

/-- Whether any of several events listens for the occurrence; the first that does ends the
search. -/
def hearsAny (scene : Scene) (limit : Nat) : List NodeId → Host σ ρ → Bool × Host σ ρ
  | [], host => (false, host)
  | event :: rest, host =>
    match scene.hears limit event host with
    | (true, after) => (true, after)
    | (false, after) => scene.hearsAny limit rest after

/-- Checks conditions in order up to the first that does not hold, and counts them. -/
def checkConditions (scene : Scene) (limit : Nat) :
    List NodeId → Host σ ρ → (Status × Nat) × Host σ ρ
  | [], host => ((.done, 0), host)
  | condition :: rest, host =>
    match (scene.evaluateBool limit condition).runOn host with
    | (.ok true, after) =>
      let ((status, checked), final) := scene.checkConditions limit rest after
      ((status, checked + 1), final)
    | (.ok false, after) => ((.failed, 1), after)
    | (.error error, after) => ((.errored error, 1), after)

/-- Attempts every action in order. Counts those that complete and collects the others. -/
def runActions (scene : Scene) (limit : Nat) :
    List NodeId → Host σ ρ → (Nat × List ActionFailure) × Host σ ρ
  | [], host => ((0, []), host)
  | action :: rest, host =>
    match (scene.evaluate limit action).runOn host with
    | (.ok _, after) =>
      let ((executed, failures), final) := scene.runActions limit rest after
      ((executed + 1, failures), final)
    | (.error error, after) =>
      let ((executed, failures), final) := scene.runActions limit rest after
      ((executed, ⟨action, error⟩ :: failures), final)

/-- Runs a trigger that the occurrence concerns. -/
def runTrigger (scene : Scene) (limit : Nat) (trigger : Trigger) (host : Host σ ρ) :
    Outcome × Host σ ρ :=
  match scene.checkConditions limit trigger.conditions host with
  | ((.done, checked), after) =>
    let ((executed, failures), final) := scene.runActions limit trigger.actions after
    (⟨trigger.id, .done, checked, executed, failures⟩, final)
  | ((status, checked), after) => (⟨trigger.id, status, checked, 0, []⟩, after)

/-- Visits triggers in order and runs those that the occurrence concerns. -/
def runTriggers (scene : Scene) (limit : Nat) :
    List Trigger → Host σ ρ → List Outcome × Host σ ρ
  | [], host => ([], host)
  | trigger :: rest, host =>
    if trigger.enabled then
      match scene.hearsAny limit trigger.events host with
      | (false, after) => scene.runTriggers limit rest after
      | (true, after) =>
        let (outcome, after) := scene.runTrigger limit trigger after
        let (outcomes, final) := scene.runTriggers limit rest after
        (outcome :: outcomes, final)
    else scene.runTriggers limit rest host

end Scene

/-- Handles an occurrence. Without a scenario it is dropped. -/
def dispatch {σ ρ : Type} [Services σ] [RandomSource ρ] (registry : Registry) (limit : Nat)
    (scenario : Option Scenario) (occurrence : Occurrence) (host : Host σ ρ) :
    Report × Host σ ρ :=
  match scenario with
  | none => ({ kind := occurrence.kind, dropped := true }, host)
  | some scenario =>
    let scene : Scene := ⟨registry, scenario, Facts.ofOccurrence occurrence⟩
    let (outcomes, after) := scene.runTriggers limit scenario.triggers host
    ({ kind := occurrence.kind, outcomes }, after)

end Rulebook

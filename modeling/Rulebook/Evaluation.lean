import Rulebook.Attempt
import Rulebook.Random
import Rulebook.Registry
import Rulebook.Scenario

/-!
# Evaluation

A node is evaluated by running the rule of its variant and serving the
requests that the rule makes: an argument is the node in the slot evaluated one
level deeper, a question or an effect goes to the host, a roll to the random
source. The state of host and source is threaded through in the order of the
requests and survives an error.

Nothing here looks at a particular variant. That a value has the type that its
node declares is checked when the rule is done, and a slot's default stands in
for a child that is not there.
-/

namespace Rulebook

/-- Why a node has no value. -/
inductive EvalError where
  | missingArgument (node : NodeId) (param : String)
  | danglingReference (node : NodeId) (reference : String)
  | missingFact (fact : String)
  | typeMismatch (node : NodeId) (expected found : ValueType)
  | unknownNode (node : NodeId)
  | unknownVariant (variant : VariantId)
  | depthExceeded (limit : Nat)
  | actionFailed (node : NodeId) (cause : ServiceError)
deriving DecidableEq

/-- An error in words. -/
def EvalError.message : EvalError → String
  | missingArgument node param => node.text ++ " has no argument bound to " ++ Text.quoted param
  | danglingReference node reference => node.text ++ " refers to missing " ++ reference
  | missingFact fact => "occurrence has no " ++ fact
  | typeMismatch node expected found =>
    node.text ++ " produces " ++ found.name ++ ", " ++ expected.name ++ " was requested"
  | unknownNode node => "unknown node " ++ node.text
  | unknownVariant variant => "unregistered variant " ++ variant
  | depthExceeded limit => "evaluation exceeded depth " ++ toString limit
  | actionFailed node cause => "action " ++ node.text ++ " failed: " ++ cause.message

/-- The error of a node whose rule gave up. -/
def Failure.atNode (node : NodeId) : Failure → EvalError
  | missingArgument param => .missingArgument node param
  | danglingReference reference => .danglingReference node reference
  | missingFact fact => .missingFact fact
  | typeMismatch expected found => .typeMismatch node expected found

/-- What an evaluation reads and cannot change. -/
structure Scene where
  registry : Registry
  scenario : Scenario
  facts : Facts

/-- What an evaluation changes: the state of the host and that of the random source. -/
structure Host (σ ρ : Type) where
  services : σ
  random : ρ

/-- A part of an evaluation that ends with an `α`. -/
abbrev Evaluation (σ ρ α : Type) := Attempt EvalError (Host σ ρ) α

namespace Scene

variable {σ ρ : Type} [Services σ] [RandomSource ρ]

/-- The value that a literal stands for, if what it refers to exists. -/
def literalValue? (scene : Scene) (services : σ) : Literal → Except Failure Value
  | .int value => .ok (.int value)
  | .text value => .ok (.text value)
  | .bool value => .ok (.bool value)
  | .comparator value => .ok (.comparator value)
  | .damageType value => .ok (.damageType value)
  | .block key =>
    if Services.hasBlock services key then .ok (.block key)
    else .error (.danglingReference key.text)
  | .item key =>
    if Services.hasItem services key then .ok (.item key)
    else .error (.danglingReference key.text)
  | .region id =>
    match scene.scenario.region? id with
    | some _ => .ok (.region id)
    | none => .error (.danglingReference id.text)

/-- Turns a literal into a value on behalf of a node. -/
def resolve (scene : Scene) (node : NodeId) (literal : Literal) : Evaluation σ ρ Value := do
  let host ← get
  (scene.literalValue? host.services literal).mapError (Failure.atNode node)

/-- Looks a region up on behalf of a node. -/
def region (scene : Scene) (node : NodeId) (id : RegionId) : Evaluation σ ρ Region :=
  match scene.scenario.region? id with
  | some region => return region
  | none => throw (.danglingReference node id.text)

/-- The argument in a slot: the node in it, evaluated by `child`, or else the default. -/
def argument (scene : Scene) (child : NodeId → Evaluation σ ρ Value) (node : Node)
    (param : String) : Evaluation σ ρ Value :=
  match node.argument? param with
  | some id => child id
  | none =>
    match ((scene.registry.get? node.variant).bind (·.param? param)).bind (·.fallback) with
    | some literal => scene.resolve node.id literal
    | none => throw (.missingArgument node.id param)

/-- Puts a question to the host. -/
def ask (query : Query) : Evaluation σ ρ query.Answer :=
  Attempt.ofRun fun ⟨services, random⟩ =>
    let (reply, services) := Services.answer query services
    (.ok reply, ⟨services, random⟩)

/-- Asks the host for an effect on behalf of a node. -/
def perform (node : NodeId) (effect : Effect) : Evaluation σ ρ Unit :=
  Attempt.ofRun fun ⟨services, random⟩ =>
    let (result, services) := Services.perform effect services
    (result.mapError (.actionFailed node), ⟨services, random⟩)

/-- Draws a random integer. -/
def roll (low high : Int64) : Evaluation σ ρ Int64 :=
  Attempt.ofRun fun ⟨services, random⟩ =>
    let (drawn, random) := RandomSource.draw low high random
    (.ok drawn, ⟨services, random⟩)

/-- Runs a script on behalf of a node, whose arguments `child` evaluates. -/
def serve {α : Type} (scene : Scene) (child : NodeId → Evaluation σ ρ Value) (node : Node) :
    Script α → Evaluation σ ρ α
  | .done result => return result
  | .fail why => throw (why.atNode node.id)
  | .argument param next => do
    let value ← scene.argument child node param
    serve scene child node (next value)
  | .literal next => serve scene child node (next node.literal)
  | .resolve literal next => do
    let value ← scene.resolve node.id literal
    serve scene child node (next value)
  | .facts next => serve scene child node (next scene.facts)
  | .region id next => do
    let region ← scene.region node.id id
    serve scene child node (next region)
  | .ask query next => do
    let reply ← ask query
    serve scene child node (next reply)
  | .perform effect next => do
    perform node.id effect
    serve scene child node next
  | .roll low high next => do
    let drawn ← roll low high
    serve scene child node (next drawn)

/-- Evaluates a node when `remaining` of the `limit` levels may still be entered. -/
def evaluateWithin (scene : Scene) (limit : Nat) :
    (remaining : Nat) → NodeId → Evaluation σ ρ Value
  | remaining, id =>
    match scene.scenario.forest.get? id with
    | none => throw (.unknownNode id)
    | some node =>
      match scene.registry.get? node.variant with
      | none => throw (.unknownVariant node.variant)
      | some variant =>
        match remaining with
        | 0 => throw (.depthExceeded limit)
        | remaining + 1 => do
          let value ← scene.serve (scene.evaluateWithin limit remaining) node variant.rule
          unless value.type = node.result do
            throw (.typeMismatch id node.result value.type)
          return value

/-- Evaluates a node, entering no more than `limit` levels. -/
def evaluate (scene : Scene) (limit : Nat) (id : NodeId) : Evaluation σ ρ Value :=
  scene.evaluateWithin limit limit id

/-- Evaluates a node that must be of a type. The declared type is looked at first, so a node of
another type is not evaluated at all. -/
def evaluateAs (scene : Scene) (limit : Nat) (type : ValueType) (id : NodeId) :
    Evaluation σ ρ Value :=
  match scene.scenario.forest.get? id with
  | none => throw (.unknownNode id)
  | some node => do
    unless node.result = type do
      throw (.typeMismatch id type node.result)
    scene.evaluate limit id

/-- Evaluates a node that must be a boolean. -/
def evaluateBool (scene : Scene) (limit : Nat) (id : NodeId) : Evaluation σ ρ Bool := do
  match ← scene.evaluateAs limit .bool id with
  | .bool value => return value
  | other => throw (.typeMismatch id .bool other.type)

/-- Runs a script on behalf of a node that is not itself entered: its arguments are evaluated
with all of the `limit` levels still ahead. -/
def inspect {α : Type} (scene : Scene) (limit : Nat) (node : Node) (script : Script α) :
    Evaluation σ ρ α :=
  scene.serve (scene.evaluate limit) node script

end Scene

end Rulebook

import Rulebook.Literal
import Rulebook.Occurrence
import Rulebook.Services
import Rulebook.Value

/-!
# Rules as scripts of requests

The rule of a variant says how a node of it produces its value. It is a
program of requests: for an argument, a fact, an answer of the host, an effect,
a random draw. A rule never sees the graph or the host; whoever runs it serves
the requests, which is why a rule can be registered by anyone and why every
fact about rules is a fact about this one type.
-/

namespace Rulebook

/-- Why a rule gave up. The node at which it did is added by whoever runs the rule. -/
inductive Failure where
  /-- A slot without a default is unset. -/
  | missingArgument (param : String)
  /-- Something that is referred to has stopped existing. -/
  | danglingReference (reference : String)
  /-- The occurrence does not carry the fact. -/
  | missingFact (fact : String)
  /-- A value of one type was wanted and another came. -/
  | typeMismatch (expected found : ValueType)
deriving DecidableEq

/-- A program of requests that ends with an `α` or gives up. -/
inductive Script (α : Type) where
  /-- Ends with a result. -/
  | done (result : α)
  /-- Gives up. -/
  | fail (why : Failure)
  /-- Evaluates the argument in a slot of the node. -/
  | argument (param : String) (next : Value → Script α)
  /-- Looks at the node's own literal. -/
  | literal (next : Option Literal → Script α)
  /-- Turns a literal into a value, checking that what it refers to exists. -/
  | resolve (literal : Literal) (next : Value → Script α)
  /-- Looks at the facts of the occurrence. -/
  | facts (next : Facts → Script α)
  /-- Looks a region up. -/
  | region (id : RegionId) (next : Region → Script α)
  /-- Puts a question to the host. -/
  | ask (query : Query) (next : query.Answer → Script α)
  /-- Asks the host for an effect; a refusal ends the rule. -/
  | perform (effect : Effect) (next : Script α)
  /-- Draws a random integer between two others. -/
  | roll (low high : Int64) (next : Int64 → Script α)

/-- How a node produces its value.

This is less than a program could do that is handed the evaluation itself. A rule ends where a
request of it fails: it cannot catch the error of an argument, or go on after an effect that was
refused or a reference that led nowhere. It evaluates what is in its own slots and no other node,
it looks at regions but not at the triggers or at the rest of the script, and it draws from the
random source only integers between two bounds. No built-in rule does more; of a registered rule
that does, nothing is said here. -/
abbrev Rule := Script Value

namespace Script

/-- Goes on with the result of a script. -/
def andThen {α β : Type} : Script α → (α → Script β) → Script β
  | done result, k => k result
  | fail why, _ => fail why
  | argument param next, k => argument param fun value => (next value).andThen k
  | literal next, k => literal fun own => (next own).andThen k
  | resolve lit next, k => resolve lit fun value => (next value).andThen k
  | facts next, k => facts fun known => (next known).andThen k
  | region id next, k => region id fun found => (next found).andThen k
  | ask query next, k => ask query fun reply => (next reply).andThen k
  | perform effect next, k => perform effect (next.andThen k)
  | roll low high next, k => roll low high fun drawn => (next drawn).andThen k

instance : Monad Script where
  pure := done
  bind := andThen

/-- The argument in a slot, whatever its type. -/
def arg (param : String) : Script Value := argument param done

/-- The argument in a slot, which must be of the given type. -/
def argOf {α : Type} (type : ValueType) (pick : Value → Option α) (param : String) : Script α := do
  let value ← arg param
  match pick value with
  | some a => done a
  | none => fail (.typeMismatch type value.type)

/-- An integer argument. -/
def intArg : String → Script Int64 := argOf .int Value.int?

/-- A text argument. -/
def textArg : String → Script String := argOf .text Value.text?

/-- A boolean argument. -/
def boolArg : String → Script Bool := argOf .bool Value.bool?

/-- An argument that is a comparison operator. -/
def comparatorArg : String → Script Comparator := argOf .comparator Value.comparator?

/-- An argument that is a cause of damage. -/
def damageTypeArg : String → Script DamageType := argOf .damageType Value.damageType?

/-- An argument that is an actor. -/
def entityArg : String → Script ActorId := argOf .entity Value.entity?

/-- An argument that is a block type. -/
def blockArg : String → Script ResourceKey := argOf .block Value.block?

/-- An argument that is an item type. -/
def itemArg : String → Script ResourceKey := argOf .item Value.item?

/-- An argument that is a region. -/
def regionArg : String → Script RegionId := argOf .region Value.region?

/-- A fact of the occurrence, which must be there. -/
def fact {α : Type} (name : String) (pick : Facts → Option α) : Script α :=
  facts fun known => match pick known with
    | some a => done a
    | none => fail (.missingFact name)

/-- The answer of the host to a question. -/
def answerTo (query : Query) : Script query.Answer := ask query done

/-- An effect of the host. -/
def effect (effect : Effect) : Script Unit := perform effect (done ())

end Script

end Rulebook

import Rulebook.Integer
import Rulebook.Region
import Rulebook.ResourceKey

/-!
# Services of the host

Scripts never touch the simulation. They put questions to the host and ask it
for effects, and this is the whole of what they can ask. A question always has
an answer; an effect may be refused, and then only the action that wanted it
fails.
-/

namespace Rulebook

/-- A question that a rule puts to the host. -/
inductive Query where
  /-- The name of a player, if the actor is one. -/
  | playerName (actor : ActorId)
  /-- How many blocks of a type the actor holds. -/
  | countBlocks (actor : ActorId) (block : ResourceKey)
  /-- How many items of a type the actor holds. -/
  | countItems (actor : ActorId) (item : ResourceKey)
  /-- Whether the actor is inside a region. -/
  | isInRegion (actor : ActorId) (region : Region)

/-- The sort of answer that a question has. -/
@[reducible] def Query.Answer : Query → Type
  | playerName _ => Option String
  | countBlocks _ _ => Int64
  | countItems _ _ => Int64
  | isInRegion _ _ => Bool

/-- A change that a rule asks the host for. -/
inductive Effect where
  | giveBlocks (actor : ActorId) (block : ResourceKey) (amount : Int64)
  | removeBlocks (actor : ActorId) (block : ResourceKey) (amount : Int64)
  | giveItems (actor : ActorId) (item : ResourceKey) (amount : Int64)
  /-- A chat message to everyone. -/
  | broadcast (message : String)
  /-- A chat message to one player. -/
  | sendMessage (actor : ActorId) (message : String)
  /-- A line in the script log. -/
  | log (message : String)
  /-- Moves the actor into a region. -/
  | teleport (actor : ActorId) (region : Region)
deriving DecidableEq

/-- Why the host refused an effect. -/
inductive ServiceError where
  | unknownBlock (block : ResourceKey)
  | unknownItem (item : ResourceKey)
  | unknownActor (actor : ActorId)
  | insufficient (actor : ActorId) (resource : ResourceKey) (requested available : Int64)
  | invalidAmount (amount : Int64)
  | unavailable (reason : String)
deriving DecidableEq

/-- A refusal in words. -/
def ServiceError.message : ServiceError → String
  | unknownBlock block => "unknown block " ++ block.text
  | unknownItem item => "unknown item " ++ item.text
  | unknownActor actor => "unknown actor " ++ actor.text
  | insufficient actor resource requested available =>
    actor.text ++ " holds " ++ integerText available ++ " of " ++ resource.text ++ ", "
      ++ integerText requested ++ " requested"
  | invalidAmount amount => "invalid amount " ++ integerText amount
  | unavailable reason => "service unavailable: " ++ reason

/-- A host, whose state is a `σ`. Asking may leave a trace in the state, so an answer
comes with the state after it; a refused effect does too. -/
class Services (σ : Type) where
  /-- Whether the host knows the block type. -/
  hasBlock : σ → ResourceKey → Bool
  /-- Whether the host knows the item type. -/
  hasItem : σ → ResourceKey → Bool
  /-- Answers a question. -/
  answer : (query : Query) → σ → query.Answer × σ
  /-- Carries an effect out, or refuses it. -/
  perform : Effect → σ → Except ServiceError Unit × σ

end Rulebook

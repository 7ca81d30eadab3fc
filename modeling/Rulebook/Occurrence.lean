import Rulebook.Id
import Rulebook.ResourceKey
import Rulebook.Vocabulary

/-!
# Occurrences

What the host reports: something happened in the simulation. Each report
carries the facts that the rules of a script may ask for while it is handled.
-/

namespace Rulebook

/-- What sort of thing happened. -/
inductive OccurrenceKind where
  | blockDestroyed
  | playerSpawned
  | playerRespawned
  | regionEntered
  | regionLeft
deriving DecidableEq, Repr

namespace OccurrenceKind

/-- All kinds of occurrence. -/
def all : List OccurrenceKind :=
  [blockDestroyed, playerSpawned, playerRespawned, regionEntered, regionLeft]

/-- The name of a kind. -/
def name : OccurrenceKind → String
  | blockDestroyed => "BlockDestroyed"
  | playerSpawned => "PlayerSpawned"
  | playerRespawned => "PlayerRespawned"
  | regionEntered => "RegionEntered"
  | regionLeft => "RegionLeft"

/-- Whether occurrences of this kind name a region. -/
def isRegionScoped : OccurrenceKind → Bool
  | regionEntered | regionLeft => true
  | _ => false

end OccurrenceKind

/-- Something that happened in the simulation. -/
inductive Occurrence where
  /-- A block was destroyed: by whom in the end (the archer), by what directly (the arrow),
  how, and of which type it was. -/
  | blockDestroyed (instigator directCause : Option ActorId) (damage : DamageType)
      (destroyed : ResourceKey)
  | playerSpawned (player : ActorId)
  | playerRespawned (player : ActorId)
  | regionEntered (player : ActorId) (region : RegionId)
  | regionLeft (player : ActorId) (region : RegionId)
deriving DecidableEq

namespace Occurrence

/-- The destruction of a block by no one in particular. -/
def ofDestroyed (block : ResourceKey) : Occurrence := blockDestroyed none none .generic block

/-- The kind of an occurrence. -/
def kind : Occurrence → OccurrenceKind
  | blockDestroyed .. => .blockDestroyed
  | playerSpawned _ => .playerSpawned
  | playerRespawned _ => .playerRespawned
  | regionEntered _ _ => .regionEntered
  | regionLeft _ _ => .regionLeft

/-- The region that an occurrence names. -/
def region? : Occurrence → Option RegionId
  | regionEntered _ region | regionLeft _ region => some region
  | _ => none

/-- Names the instigator of a block's destruction; other occurrences are unchanged. -/
def withInstigator (actor : ActorId) : Occurrence → Occurrence
  | blockDestroyed _ cause damage destroyed => blockDestroyed (some actor) cause damage destroyed
  | other => other

/-- Names the direct cause of a block's destruction; other occurrences are unchanged. -/
def withDirectCause (actor : ActorId) : Occurrence → Occurrence
  | blockDestroyed instigator _ damage destroyed =>
    blockDestroyed instigator (some actor) damage destroyed
  | other => other

/-- Names the damage of a block's destruction; other occurrences are unchanged. -/
def withDamage (damage : DamageType) : Occurrence → Occurrence
  | blockDestroyed instigator cause _ destroyed =>
    blockDestroyed instigator cause damage destroyed
  | other => other

end Occurrence

/-- What a script may ask about the occurrence being handled. -/
structure Facts where
  kind : OccurrenceKind
  /-- Who caused it: the instigator, or the player who spawned or moved. -/
  actor : Option ActorId := none
  directCause : Option ActorId := none
  damage : Option DamageType := none
  destroyed : Option ResourceKey := none
  region : Option RegionId := none
deriving DecidableEq

namespace Facts

/-- No facts but the kind, for evaluating outside of an occurrence. -/
def empty (kind : OccurrenceKind) : Facts := { kind }

/-- The facts of an occurrence. -/
def ofOccurrence : Occurrence → Facts
  | .blockDestroyed instigator cause damage destroyed =>
    { kind := .blockDestroyed, actor := instigator, directCause := cause, damage := some damage,
      destroyed := some destroyed }
  | .playerSpawned player => { kind := .playerSpawned, actor := some player }
  | .playerRespawned player => { kind := .playerRespawned, actor := some player }
  | .regionEntered player region =>
    { kind := .regionEntered, actor := some player, region := some region }
  | .regionLeft player region =>
    { kind := .regionLeft, actor := some player, region := some region }

end Facts

end Rulebook

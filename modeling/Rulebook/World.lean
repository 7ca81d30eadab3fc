import Rulebook.Attempt
import Rulebook.Services

/-!
# A world in memory

A host that keeps just enough of a simulation to run scripts: the block and
item types there are, the players with their places and what they hold, and
records of what scripts said, logged and counted. Each record keeps only its
newest entries, so that a script that never ends cannot fill the memory.
-/

namespace Rulebook

/-- The state of a player. -/
structure Player where
  name : String
  position : Point := .origin
  blocks : Std.ExtTreeMap ResourceKey Int64 := ∅
  items : Std.ExtTreeMap ResourceKey Int64 := ∅
deriving DecidableEq

/-- A line of chat, to one player or to everyone. -/
structure ChatLine where
  recipient : Option ActorId
  text : String
deriving DecidableEq

/-- A question that was asked about an inventory. -/
structure InventoryQuery where
  actor : ActorId
  resource : ResourceKey
deriving DecidableEq

/-- How many entries each record keeps unless told otherwise. -/
def defaultRecordLimit : Nat := 1024

/-- A self-contained world. -/
structure World where
  blockTypes : List ResourceKey := []
  itemTypes : List ResourceKey := []
  players : Std.ExtTreeMap ActorId Player := ∅
  /-- Recent chat, oldest first. -/
  chat : Array ChatLine := #[]
  /-- Recent lines of the script log, oldest first. -/
  log : Array String := #[]
  /-- Recent questions about inventories, oldest first. -/
  queries : Array InventoryQuery := #[]
  recordLimit : Nat := defaultRecordLimit
deriving DecidableEq

/-- A record with one more entry, cut down to its newest `limit` entries. -/
def keepNewest {α : Type} (limit : Nat) (record : Array α) (entry : α) : Array α :=
  let grown := record.push entry
  if grown.size ≤ limit then grown else grown.extract (grown.size - limit)

theorem toList_keepNewest {α : Type} (limit : Nat) (record : Array α) (entry : α) :
    (keepNewest limit record entry).toList
      = (record.toList ++ [entry]).drop (record.size + 1 - limit) := by
  rw [keepNewest, Array.size_push]
  split
  next h => rw [Nat.sub_eq_zero_of_le h, Array.toList_push, List.drop_zero]
  next =>
    rw [Array.toList_extract, Array.toList_push, List.extract_eq_take_drop,
      List.take_of_length_le (by simp)]

namespace World

/-- The world without anything in it. -/
def empty : World := {}

/-! ## Setting the world up -/

/-- Makes a block type known. -/
def addBlockType (world : World) (key : ResourceKey) : World :=
  if key ∈ world.blockTypes then world else { world with blockTypes := world.blockTypes ++ [key] }

/-- Makes an item type known. -/
def addItemType (world : World) (key : ResourceKey) : World :=
  if key ∈ world.itemTypes then world else { world with itemTypes := world.itemTypes ++ [key] }

/-- Forgets a block type. -/
def removeBlockType (world : World) (key : ResourceKey) : World :=
  { world with blockTypes := world.blockTypes.filter (· ≠ key) }

/-- Adds a player at the origin with empty hands, in place of any player of that number. -/
def addPlayer (world : World) (actor : ActorId) (name : String) : World :=
  { world with players := world.players.insert actor { name } }

/-- Removes a player. -/
def removePlayer (world : World) (actor : ActorId) : World :=
  { world with players := world.players.erase actor }

/-- The player of a number. -/
def player? (world : World) (actor : ActorId) : Option Player := world.players[actor]?

/-- Changes one player; a number without a player changes nothing. -/
def updatePlayer (world : World) (actor : ActorId) (f : Player → Player) : World :=
  { world with players := world.players.modify actor f }

/-- Sets how many blocks of a type a player holds. -/
def setBlocks (world : World) (actor : ActorId) (block : ResourceKey) (amount : Int64) : World :=
  world.updatePlayer actor fun player => { player with blocks := player.blocks.insert block amount }

/-- Sets how many items of a type a player holds. -/
def setItems (world : World) (actor : ActorId) (item : ResourceKey) (amount : Int64) : World :=
  world.updatePlayer actor fun player => { player with items := player.items.insert item amount }

/-- Moves a player. -/
def setPosition (world : World) (actor : ActorId) (position : Point) : World :=
  world.updatePlayer actor fun player => { player with position }

/-- Sets how many entries each record keeps from the next entry on. -/
def setRecordLimit (world : World) (limit : Nat) : World := { world with recordLimit := limit }

/-- Empties all records. -/
def clearRecords (world : World) : World := { world with chat := #[], log := #[], queries := #[] }

/-! ## Looking at the world -/

/-- How many blocks of a type a player holds. No record is made. -/
def blocksOf (world : World) (actor : ActorId) (block : ResourceKey) : Int64 :=
  ((world.player? actor).bind fun player => player.blocks[block]?).getD 0

/-- How many items of a type a player holds. No record is made. -/
def itemsOf (world : World) (actor : ActorId) (item : ResourceKey) : Int64 :=
  ((world.player? actor).bind fun player => player.items[item]?).getD 0

/-- Whether a player is inside a region. -/
def isInRegion (world : World) (actor : ActorId) (region : Region) : Bool :=
  match world.player? actor with
  | some player => region.bounds.contains player.position
  | none => false

/-! ## Serving scripts -/

/-- Records that an inventory was asked about. -/
def recordQuery (world : World) (actor : ActorId) (resource : ResourceKey) : World :=
  { world with queries := keepNewest world.recordLimit world.queries ⟨actor, resource⟩ }

/-- Records a line of chat. -/
def recordChat (world : World) (recipient : Option ActorId) (text : String) : World :=
  { world with chat := keepNewest world.recordLimit world.chat ⟨recipient, text⟩ }

/-- Records a line of the script log. -/
def recordLog (world : World) (text : String) : World :=
  { world with log := keepNewest world.recordLimit world.log text }

/-- Answers a question. Counting leaves a record. -/
def answer : (query : Query) → World → query.Answer × World
  | .playerName actor, world => ((world.player? actor).map (·.name), world)
  | .countBlocks actor block, world => (world.blocksOf actor block, world.recordQuery actor block)
  | .countItems actor item, world => (world.itemsOf actor item, world.recordQuery actor item)
  | .isInRegion actor region, world => (world.isInRegion actor region, world)

/-- The player of a number, or the complaint that there is none. -/
def requirePlayer (world : World) (actor : ActorId) : Except ServiceError Player :=
  match world.player? actor with
  | some player => .ok player
  | none => .error (.unknownActor actor)

/-- Only positive amounts change hands. -/
def checkAmount (amount : Int64) : Except ServiceError Unit :=
  if 0 < amount then .ok () else .error (.invalidAmount amount)

/-- Block types must be known. -/
def checkBlock (world : World) (block : ResourceKey) : Except ServiceError Unit :=
  if block ∈ world.blockTypes then .ok () else .error (.unknownBlock block)

/-- Item types must be known. -/
def checkItem (world : World) (item : ResourceKey) : Except ServiceError Unit :=
  if item ∈ world.itemTypes then .ok () else .error (.unknownItem item)

/-- One cannot give away more than one has. -/
def checkSupply (world : World) (actor : ActorId) (block : ResourceKey) (amount : Int64) :
    Except ServiceError Unit :=
  let available := world.blocksOf actor block
  if available < amount then .error (.insufficient actor block amount available) else .ok ()

/-- Carries an effect out, or refuses it. The checks come first. -/
def serve : Effect → Attempt ServiceError World Unit
  | .giveBlocks actor block amount => do
    let world ← get
    checkAmount amount
    world.checkBlock block
    let _ ← world.requirePlayer actor
    modify fun world =>
      world.setBlocks actor block (saturatingAdd (world.blocksOf actor block) amount)
  | .removeBlocks actor block amount => do
    let world ← get
    checkAmount amount
    world.checkBlock block
    let _ ← world.requirePlayer actor
    world.checkSupply actor block amount
    modify fun world =>
      world.setBlocks actor block (saturatingSub (world.blocksOf actor block) amount)
  | .giveItems actor item amount => do
    let world ← get
    checkAmount amount
    world.checkItem item
    let _ ← world.requirePlayer actor
    modify fun world =>
      world.setItems actor item (saturatingAdd (world.itemsOf actor item) amount)
  | .broadcast message => modify fun world => world.recordChat none message
  | .sendMessage actor message => do
    let world ← get
    let _ ← world.requirePlayer actor
    modify fun world => world.recordChat (some actor) message
  | .log message => modify fun world => world.recordLog message
  | .teleport actor region => do
    let world ← get
    let _ ← world.requirePlayer actor
    modify fun world => world.setPosition actor region.bounds.center

/-- What comes of asking for an effect, and the world after that. -/
def perform (effect : Effect) (world : World) : Except ServiceError Unit × World :=
  (serve effect).runOn world

instance : Services World where
  hasBlock world block := decide (block ∈ world.blockTypes)
  hasItem world item := decide (item ∈ world.itemTypes)
  answer := answer
  perform := perform

end World

end Rulebook

import Rulebook.Interchange.Entry
import Rulebook.Interchange.LiteralText
import Rulebook.Interchange.Places
import Rulebook.Scenario.Edit
import Rulebook.Text.Line

/-!
# Reading a tree

Lines are read one after the other, and each becomes a node at once: a node
without a literal at its definition, a node with one at the value line that
must follow. A path may be defined once and only below a path that was defined
before it. The first fault ends the reading, and then every node that was made
is removed again. Empty lines are skipped.
-/

namespace Rulebook

/-- A definition that waits for its value line. -/
structure Pending where
  line : Nat
  path : Path
  variant : Variant
  /-- The type of the literal that must come. -/
  type : ValueType

/-- How far the reading of a tree has come. -/
structure Progress where
  forest : Forest
  /-- The node of every path that has one. -/
  placed : Places := .empty
  /-- The nodes that were made, newest first. -/
  created : List NodeId := []
  root : Option NodeId := none
  pending : Option Pending := none

/-- What reading needs to know: the variants, what the literals may refer to, and the host. -/
structure ReadingScene (σ : Type) where
  registry : Registry
  scenario : Scenario
  services : σ

/-- A step of reading. -/
abbrev Reading (α : Type) := Attempt InterchangeError Progress α

namespace Reading

/-- An edit of the nodes; its refusals are faults of a line. -/
def edit {α : Type} (line : Nat) (step : Forest.Edit α) : Reading α :=
  (step.mapError (.rejected line)).within Progress.forest fun forest progress =>
    { progress with forest }

/-- Makes a node and keeps note of it. -/
def make (line : Nat) (step : Forest.Edit NodeId) : Reading NodeId := do
  let id ← edit line step
  modify fun progress => { progress with created := id :: progress.created }
  return id

/-- Puts a new node at its path: into the slot of the node above, or as the root. -/
def place (registry : Registry) (line : Nat) (path : Path) (id : NodeId) : Reading Unit := do
  match path.split? with
  | none => modify fun progress => { progress with root := some id }
  | some (above, param) =>
    match (← get).placed.find? above with
    | none => throw (.orphanLine line (Path.text above))
    | some parent => edit line (Forest.setArgument registry parent param id)
  modify fun progress => { progress with placed := progress.placed.put id path }

/-- Checks a definition and finds its variant. -/
def define (registry : Registry) (line : Nat) (path : Path) (name : String) :
    Reading Variant := do
  let placed := (← get).placed
  if (placed.find? path).isSome then
    throw (.duplicatePath line (Path.text path))
  if let some (above, _) := path.split? then
    unless (placed.find? above).isSome do
      throw (.orphanLine line (Path.text above))
  match registry.get? name with
  | some variant => return variant
  | none => throw (.unknownVariant line name)

/-- Reads a definition. -/
def readDefinition (registry : Registry) (line : Nat) (entry : Entry) : Reading Unit := do
  if let some pending := (← get).pending then
    throw (.missingLiteral pending.line pending.variant.id)
  let variant ← define registry line entry.path (String.ofList entry.payload)
  match variant.literal with
  | some type =>
    modify fun progress => { progress with pending := some ⟨line, entry.path, variant, type⟩ }
  | none => do
    let id ← make line (Forest.createDraft registry variant.id)
    place registry line entry.path id

/-- The fault of a literal that could not be read. -/
def literalFault (line : Nat) (variant : VariantId) (text : String) :
    LiteralFault → InterchangeError
  | .invalid => .invalidLiteral line variant text
  | .unresolved => .unresolvedReference line text

/-- Reads a value line, which belongs to the definition before it. -/
def readValue {σ : Type} [Services σ] (scene : ReadingScene σ) (line : Nat) (entry : Entry) :
    Reading Unit := do
  let some pending := (← get).pending | throw (.malformed line .strayValue)
  unless pending.path = entry.path do
    throw (.malformed line .strayValue)
  modify fun progress => { progress with pending := none }
  let literal ←
    (LiteralText.read scene.scenario scene.services pending.type entry.payload).mapError
      (literalFault line pending.variant.id (String.ofList entry.payload))
  let id ← make pending.line
    (Forest.createNode scene.registry pending.variant.id [] (some literal))
  place scene.registry pending.line pending.path id

/-- Reads a line that is not empty. -/
def readLine {σ : Type} [Services σ] (scene : ReadingScene σ) (line : Nat) (text : List Char) :
    Reading Unit := do
  let entry ← (Entry.parse text).mapError (InterchangeError.malformed line)
  match entry.marker with
  | .definition => readDefinition scene.registry line entry
  | .value => readValue scene line entry

/-- Reads lines to the end and yields the root. -/
def readLines {σ : Type} [Services σ] (scene : ReadingScene σ) :
    List (Nat × List Char) → Reading NodeId
  | [] => do
    let progress ← get
    if let some pending := progress.pending then
      throw (.missingLiteral pending.line pending.variant.id)
    match progress.root with
    | some root => return root
    | none => throw .empty
  | (line, text) :: rest => do
    unless text.isEmpty do
      readLine scene line text
    readLines scene rest

end Reading

namespace Scenario

/-- A step of reading into a scenario. -/
abbrev Import (α : Type) := Attempt InterchangeError Scenario α

/-- Reads numbered lines as a tree and yields its detached root. If they are no tree, the
nodes that were made are removed. -/
def decodeLines {σ : Type} [Services σ] (registry : Registry) (services : σ)
    (lines : List (Nat × List Char)) : Import NodeId :=
  Attempt.ofRun fun scenario =>
    let reading := Reading.readLines ⟨registry, scenario, services⟩ lines
    match reading.runOn { forest := scenario.forest } with
    | (.ok root, progress) => (.ok root, { scenario with forest := progress.forest })
    | (.error fault, progress) =>
      (.error fault, { scenario with forest := removeTrees progress.forest progress.created.reverse })

/-- Reads a text as a tree and yields its detached root. -/
def decode {σ : Type} [Services σ] (registry : Registry) (services : σ) (text : String) :
    Import NodeId :=
  decodeLines registry services (Text.numberedLines text.toList)

end Scenario

end Rulebook

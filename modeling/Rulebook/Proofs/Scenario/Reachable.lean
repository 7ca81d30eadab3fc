import Rulebook.Proofs.Interchange.Building
import Rulebook.Proofs.Registry

/-!
# Scenarios that requests lead to

An editor starts from an empty script and makes requests of it, in any order and
any number, granted or refused. Between two requests further variants may be
registered. Region identifiers that are drawn at random are taken to be fresh,
and numbers to fit in 32 bits; nothing else is assumed of a request.

What every change of a scenario keeps holds of all that can be reached.
-/

namespace Rulebook

open Scenario (Owned Change Changes)

/-- A request of an editor. -/
inductive Request : Type 1 where
  | addTrigger (name : String)
  | deleteTrigger (id : TriggerId)
  | renameTrigger (id : TriggerId) (name : String)
  | setTriggerEnabled (id : TriggerId) (enabled : Bool)
  | moveTrigger (id : TriggerId) (target : Nat)
  | addDraft (id : TriggerId) (clause : Clause) (variant : VariantId)
  | attach (id : TriggerId) (clause : Clause) (root : NodeId)
  | deleteNode (id : NodeId)
  | moveNode (id : NodeId) (target : Nat)
  | createNode (variant : VariantId) (arguments : List (String × NodeId))
      (literal : Option Literal)
  | createDraft (variant : VariantId)
  | insertTree (tree : NodeTree)
  | setArgument (node : NodeId) (param : String) (child : NodeId)
  | clearArgument (node : NodeId) (param : String)
  | setLiteral (node : NodeId) (literal : Literal)
  | addRegion (name : String) (bounds : Bounds)
  | addFreshRegion (name : String) (bits : BitVec 128) (bounds : Bounds)
  | addSharedRegion (name : String) (stableId : Uuid) (bounds : Bounds)
  | renameRegion (id : RegionId) (name : String)
  | removeRegion (id : RegionId)
  | decode {σ : Type} [Services σ] (services : σ) (text : String)
  | importTrigger {σ : Type} [Services σ] (services : σ) (text : String)

namespace Request

/-- The scenario after a request, whether it was granted or refused. -/
def after (registry : Registry) (scenario : Scenario) : Request → Scenario
  | addTrigger name => ((Scenario.addTrigger name).runOn scenario).2
  | deleteTrigger id => ((Scenario.deleteTrigger id).runOn scenario).2
  | renameTrigger id name => ((Scenario.renameTrigger id name).runOn scenario).2
  | setTriggerEnabled id enabled => ((Scenario.setTriggerEnabled id enabled).runOn scenario).2
  | moveTrigger id target => ((Scenario.moveTrigger id target).runOn scenario).2
  | addDraft id clause variant =>
    ((Scenario.addDraft registry id clause variant).runOn scenario).2
  | attach id clause root => ((Scenario.attach id clause root).runOn scenario).2
  | deleteNode id => ((Scenario.deleteNode id).runOn scenario).2
  | moveNode id target => ((Scenario.moveNode id target).runOn scenario).2
  | createNode variant arguments literal =>
    ((Scenario.createNode registry variant arguments literal).runOn scenario).2
  | createDraft variant => ((Scenario.createDraft registry variant).runOn scenario).2
  | insertTree tree => ((Scenario.insertTree registry tree).runOn scenario).2
  | setArgument node param child =>
    ((Scenario.setArgument registry node param child).runOn scenario).2
  | clearArgument node param => ((Scenario.clearArgument registry node param).runOn scenario).2
  | setLiteral node literal => ((Scenario.setLiteral node literal).runOn scenario).2
  | addRegion name bounds => ((Scenario.addRegion name bounds).runOn scenario).2
  | addFreshRegion name bits bounds =>
    ((Scenario.addFreshRegion name bits bounds).runOn scenario).2
  | addSharedRegion name stableId bounds =>
    ((Scenario.addSharedRegion name stableId bounds).runOn scenario).2
  | renameRegion id name => ((Scenario.renameRegion id name).runOn scenario).2
  | removeRegion id => ((Scenario.removeRegion id).runOn scenario).2
  | decode services text => ((Scenario.decode registry services text).runOn scenario).2
  | importTrigger services text =>
    ((Scenario.importTrigger registry services text).runOn scenario).2

/-- An identifier that is drawn at random is one that no region has. -/
def Fresh (scenario : Scenario) : Request → Prop
  | addFreshRegion _ bits _ => scenario.regionOfStableId? (Uuid.ofRandomBits bits) = none
  | _ => True

instance decidableFresh (scenario : Scenario) : (request : Request) →
    Decidable (request.Fresh scenario)
  | addFreshRegion _ bits _ =>
    inferInstanceAs (Decidable (scenario.regionOfStableId? (Uuid.ofRandomBits bits) = none))
  | addTrigger _ | deleteTrigger _ | renameTrigger _ _ | setTriggerEnabled _ _ | moveTrigger _ _
  | addDraft _ _ _ | attach _ _ _ | deleteNode _ | moveNode _ _ | createNode _ _ _
  | createDraft _ | insertTree _ | setArgument _ _ _ | clearArgument _ _ | setLiteral _ _
  | addRegion _ _ | addSharedRegion _ _ _ | renameRegion _ _ | removeRegion _ | decode _ _
  | importTrigger _ _ => .isTrue trivial

/-- **Every request, granted or refused, is a run of changes.** -/
theorem changes {registry : Registry} {scenario : Scenario} (h : Owned scenario)
    (request : Request) (hf : request.Fresh scenario) :
    Changes registry scenario (request.after registry scenario) := by
  cases request with
  | addTrigger name => exact Scenario.addTrigger_changes name
  | deleteTrigger id => exact Scenario.deleteTrigger_changes
  | renameTrigger id name => exact Scenario.renameTrigger_changes name
  | setTriggerEnabled id enabled => exact Scenario.setTriggerEnabled_changes enabled
  | moveTrigger id target => exact Scenario.moveTrigger_changes
  | addDraft id clause variant => exact Scenario.addDraft_changes h
  | attach id clause root => exact Scenario.attach_changes
  | deleteNode id => exact Scenario.deleteNode_changes h
  | moveNode id target => exact Scenario.moveNode_changes
  | createNode variant arguments literal =>
      exact Scenario.onForest_changes (Forest.createNode_changes h.linked)
  | createDraft variant => exact Scenario.onForest_changes Forest.createDraft_changes
  | insertTree tree => exact Scenario.onForest_changes (Forest.insertTree_changes tree h.linked)
  | setArgument node param child =>
      exact Scenario.onForest_changes (Forest.setArgument_changes h.linked)
  | clearArgument node param =>
      exact Scenario.onForest_changes (Forest.clearArgument_changes h.linked)
  | setLiteral node literal => exact Scenario.onForest_changes Forest.setLiteral_changes
  | addRegion name bounds => exact Scenario.addRegion_changes name bounds
  | addFreshRegion name bits bounds => exact Scenario.addFreshRegion_changes name bounds hf
  | addSharedRegion name stableId bounds =>
      exact Scenario.addSharedRegion_changes name stableId bounds
  | renameRegion id name => exact Scenario.renameRegion_changes name
  | removeRegion id => exact Scenario.removeRegion_changes
  | decode services text => exact Scenario.decode_changes h
  | importTrigger services text => exact Scenario.importTrigger_changes h

end Request

namespace Scenario

/-- The next numbers of nodes, triggers and regions fit in 32 bits. -/
structure InRange (scenario : Scenario) : Prop where
  nodes : scenario.forest.nextId < limit32
  triggers : scenario.nextTrigger < limit32
  regions : scenario.nextRegion < limit32

instance decidableInRange (scenario : Scenario) : Decidable scenario.InRange :=
  decidable_of_iff
    (scenario.forest.nextId < limit32 ∧ scenario.nextTrigger < limit32 ∧
      scenario.nextRegion < limit32)
    ⟨fun ⟨hn, ht, hr⟩ => ⟨hn, ht, hr⟩, fun h => ⟨h.nodes, h.triggers, h.regions⟩⟩

/-- Requests lead from an empty script to the scenario, each made with variants of its own. -/
inductive Reached : Scenario → Prop where
  | empty (name : String) : Reached (.empty name)
  | request {scenario : Scenario} (registry : Registry) (request : Request) :
      Reached scenario → request.Fresh scenario → (request.after registry scenario).InRange →
      Reached (request.after registry scenario)

/-- Requests lead from an empty script to the scenario while the variants, registered one by
one, come to be those of the registry. -/
inductive Reachable : Registry → Scenario → Prop where
  | empty (name : String) : Reachable .empty (.empty name)
  | register {registry grown : Registry} {scenario : Scenario} {variant : Variant} :
      Reachable registry scenario → registry.register variant = .ok grown →
      Reachable grown scenario
  | request {registry : Registry} {scenario : Scenario} (request : Request) :
      Reachable registry scenario → request.Fresh scenario →
      (request.after registry scenario).InRange →
      Reachable registry (request.after registry scenario)

variable {registry : Registry} {scenario : Scenario}

theorem Reachable.reached (h : Reachable registry scenario) : Reached scenario := by
  induction h with
  | empty name => exact .empty name
  | register _ _ ih => exact ih
  | request request _ hf hr ih => exact .request _ request ih hf hr

theorem Reached.owned (h : Reached scenario) : Owned scenario := by
  induction h with
  | empty name => exact owned_empty name
  | request registry request _ hf _ ih => exact (request.changes ih hf).owned ih

theorem Reached.inRange (h : Reached scenario) : scenario.InRange := by
  cases h with
  | empty name =>
      have hzero : 0 < limit32 := by decide
      exact ⟨hzero, hzero, hzero⟩
  | request registry request _ _ hr => exact hr

/-- Each of the requests can be made where the ones before it lead to. -/
def Admits (registry : Registry) : Scenario → List Request → Prop
  | _, [] => True
  | scenario, request :: rest =>
    request.Fresh scenario ∧ (request.after registry scenario).InRange ∧
      Admits registry (request.after registry scenario) rest

instance decidableAdmits (registry : Registry) : (scenario : Scenario) →
    (requests : List Request) → Decidable (Admits registry scenario requests)
  | _, [] => .isTrue trivial
  | scenario, request :: rest =>
    have := decidableAdmits registry (request.after registry scenario) rest
    inferInstanceAs (Decidable (_ ∧ _ ∧ _))

theorem Reachable.requests (requests : List Request) :
    ∀ {scenario}, Reachable registry scenario → Admits registry scenario requests →
      Reachable registry
        (requests.foldl (fun scenario request => request.after registry scenario) scenario) := by
  induction requests with
  | nil => exact fun h _ => h
  | cons request rest ih =>
      intro scenario h ⟨hf, hr, hrest⟩
      exact ih (h.request request hf hr) hrest

end Scenario

/-! ## A script that greets

A small script, made by four requests: a trigger, an action that says something, a text, and the
text put into the slot of the action. -/

namespace Greeting

/-- An action that says a text. -/
def say : Variant :=
  { id := "Say", kind := .action, result := .unit, params := [{ name := "text", type := .text }]
    rule := .argument "text" fun value =>
      match value.text? with
      | some text => .perform (.broadcast text) (.done .unit)
      | none => .fail (.typeMismatch .text value.type) }

/-- A text. -/
def word : Variant :=
  { id := "Word", kind := .value, result := .text, literal := some .text
    rule := .literal fun literal =>
      match literal with
      | some literal => .resolve literal .done
      | none => .fail (.missingArgument "literal") }

/-- The event that a player has come into the world. -/
def spawned : Variant :=
  { id := "Spawned", kind := .event, result := .unit, rule := .done .unit
    listensTo := some .playerSpawned }

def variants : Registry := ⟨[say, word]⟩

theorem register_say : Registry.empty.register say = .ok ⟨[say]⟩ := rfl

theorem register_word : Registry.register ⟨[say]⟩ word = .ok variants := rfl

theorem variants_grow : Registry.Grows .empty variants :=
  .tail (.single ⟨_, register_say⟩) ⟨_, register_word⟩

/-- The requests that make the script. -/
def requests : List Request :=
  [.addTrigger "greet", .addDraft ⟨0⟩ .actions "Say", .createNode "Word" [] (some (.text "hi")),
    .setArgument ⟨0⟩ "text" ⟨1⟩]

/-- The script. -/
def script : Scenario :=
  requests.foldl (fun scenario request => request.after variants scenario) (.empty "greeting")

theorem script_reachable : Scenario.Reachable variants script := by
  have h0 : Scenario.Reachable variants (.empty "greeting") :=
    .register (.register (.empty _) register_say) register_word
  exact h0.requests requests (by decide)

end Greeting

end Rulebook

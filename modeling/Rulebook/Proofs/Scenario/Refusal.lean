import Rulebook.Proofs.Forest.Insertion
import Rulebook.Proofs.Scenario.Reachable

/-!
# Refused requests

A request that is refused changes nothing. Most requests check everything before
they act, and one that has not acted has nothing to take back. Two make nodes
before they can tell: inserting a tree, and drafting a node for a list. What they
have made is one tree, and when they are refused they remove its root and so all
of it. That there has been such a tree shows in the number of the next node and
nowhere else.

Texts are not the concern of this module: how a reading fails is said where it is
read.
-/

namespace Rulebook

open Attempt

/-- What a step fails with, if it fails. -/
def Attempt.error? {ε σ α : Type} (step : Attempt ε σ α) (s : σ) : Option ε :=
  match (step.runOn s).1 with
  | .ok _ => none
  | .error e => some e

theorem Attempt.error?_eq_some {ε σ α : Type} {step : Attempt ε σ α} {s : σ} {e : ε} :
    step.error? s = some e ↔ ∃ t, step.runOn s = (.error e, t) := by
  unfold error?
  cases hr : step.runOn s with
  | mk result t => cases result <;> simp

namespace Request

/-- What an edit is refused with, if it is refused. Reading a text has complaints of its own. -/
def refusal? (registry : Registry) (scenario : Scenario) : Request → Option Rejection
  | addTrigger name => (Scenario.addTrigger name).error? scenario
  | deleteTrigger id => (Scenario.deleteTrigger id).error? scenario
  | renameTrigger id name => (Scenario.renameTrigger id name).error? scenario
  | setTriggerEnabled id enabled => (Scenario.setTriggerEnabled id enabled).error? scenario
  | moveTrigger id target => (Scenario.moveTrigger id target).error? scenario
  | addDraft id clause variant => (Scenario.addDraft registry id clause variant).error? scenario
  | attach id clause root => (Scenario.attach id clause root).error? scenario
  | deleteNode id => (Scenario.deleteNode id).error? scenario
  | moveNode id target => (Scenario.moveNode id target).error? scenario
  | createNode variant arguments literal =>
    (Scenario.createNode registry variant arguments literal).error? scenario
  | createDraft variant => (Scenario.createDraft registry variant).error? scenario
  | insertTree tree => (Scenario.insertTree registry tree).error? scenario
  | setArgument node param child =>
    (Scenario.setArgument registry node param child).error? scenario
  | clearArgument node param => (Scenario.clearArgument registry node param).error? scenario
  | setLiteral node literal => (Scenario.setLiteral node literal).error? scenario
  | addRegion name bounds => (Scenario.addRegion name bounds).error? scenario
  | addFreshRegion name bits bounds => (Scenario.addFreshRegion name bits bounds).error? scenario
  | addSharedRegion name stableId bounds =>
    (Scenario.addSharedRegion name stableId bounds).error? scenario
  | renameRegion id name => (Scenario.renameRegion id name).error? scenario
  | removeRegion id => (Scenario.removeRegion id).error? scenario
  | decode _ _ | importTrigger _ _ => none

/-- The request makes nodes before it can tell whether it will be granted. -/
def BuildsFirst : Request → Prop
  | insertTree _ | addDraft _ _ _ => True
  | _ => False

/-- The nodes that a request offers as children. -/
def offered : Request → List NodeId
  | createNode _ arguments _ => arguments.map Prod.snd
  | setArgument _ _ child => [child]
  | _ => []

end Request

namespace Scenario

variable {registry : Registry} {scenario after : Scenario}

theorem onForest_spares {α : Type} {edit : Forest.Edit α} (h : Spares edit) :
    Spares (onForest edit) := by
  intro scenario e after hr
  rw [onForest_runOn] at hr
  obtain ⟨he, rfl⟩ := Prod.mk.inj hr
  have hsame : (edit.runOn scenario.forest).2 = scenario.forest := by
    refine h _ e _ ?_
    rw [← he]
  rw [hsame]

theorem onForest_error {α : Type} {edit : Forest.Edit α} {fault : Rejection}
    (h : (onForest edit).runOn scenario = (.error fault, after)) :
    ∃ forest, edit.runOn scenario.forest = (.error fault, forest) ∧
      after = { scenario with forest } := by
  rw [onForest_runOn] at h
  obtain ⟨he, rfl⟩ := Prod.mk.inj h
  exact ⟨_, by rw [← he], rfl⟩

theorem unlist_spares {owner : Owner} {root : NodeId} : Spares (unlist owner root) := by
  unfold unlist
  split
  · exact updateTrigger_spares
  · exact (Sure.pure _).spares

theorem sure_remove (id : NodeId) : Sure (onForest (Forest.remove id)) := fun _ => ⟨_, _, rfl⟩

theorem deleteNode_spares {id : NodeId} : Spares (deleteNode id) := by
  unfold deleteNode
  refine .get fun scenario => .checked fun node _ => ?_
  exact unlist_spares.bind fun _ => sure_remove id

theorem sure_pushRegion {name : String} {stableId : Option Uuid} {bounds : Bounds} :
    Sure (pushRegion name stableId bounds) :=
  fun _ => ⟨_, _, pushRegion_runOn name stableId bounds⟩

theorem addSharedRegion_spares {name : String} {stableId : Uuid} {bounds : Bounds} :
    Spares (addSharedRegion name stableId bounds) := by
  unfold addSharedRegion
  refine .get fun _ => ?_
  exact .ite (.throw_bind _ _) sure_pushRegion.spares

theorem renameRegion_spares {id : RegionId} {name : String} : Spares (renameRegion id name) := by
  unfold renameRegion
  refine .get fun scenario => ?_
  split
  · exact .throw _
  · exact (Sure.set _).spares

theorem removeRegion_spares {id : RegionId} : Spares (removeRegion id) := by
  unfold removeRegion
  refine .get fun scenario => ?_
  split
  · exact (Sure.pure _).spares
  · exact (Sure.bind (.set _) fun _ => .pure _).spares

/-! ## Requests that build first -/

/-- The scenario is as it was, but for the number of the next node. -/
def Skips (scenario after : Scenario) : Prop :=
  ∃ next, scenario.forest.nextId ≤ next ∧
    after = { scenario with forest := { scenario.forest with nextId := next } }

theorem Skips.refl (scenario : Scenario) : Skips scenario scenario := ⟨_, Nat.le_refl _, rfl⟩

theorem skips_of_cleared (h : Forest.Linked scenario.forest) {forest : Forest}
    (hc : Forest.Cleared scenario.forest forest) : Skips scenario { scenario with forest } := by
  obtain ⟨next, hle, rfl⟩ := hc.eq h
  exact ⟨next, hle, rfl⟩

theorem insertTree_error (h : Forest.Linked scenario.forest) {tree : NodeTree} {fault : Rejection}
    (hr : (insertTree registry tree).runOn scenario = (.error fault, after)) :
    Skips scenario after := by
  obtain ⟨forest, hrun, rfl⟩ := onForest_error hr
  exact skips_of_cleared h ((Forest.insertTree_seedling tree h).2 fault forest hrun)

/-- A draft that the list does not take is a tree of one node. -/
theorem addDraft_error (h : Forest.Linked scenario.forest) {id : TriggerId} {clause : Clause}
    {variant : VariantId} {fault : Rejection}
    (hr : (addDraft registry id clause variant).runOn scenario = (.error fault, after)) :
    Skips scenario after := by
  unfold addDraft at hr
  rw [runOn_bind, runOn_get] at hr
  dsimp only at hr
  rcases bind_error.mp hr with hcheck | ⟨_, _, hcheck, hr⟩
  · rw [(check_error.mp hcheck).2]
    exact .refl _
  obtain ⟨_, rfl⟩ := check_ok.mp hcheck
  rcases bind_error.mp hr with hdraft | ⟨node, drafted, hdraft, hr⟩
  · rw [onForest_spares Forest.createDraft_spares _ _ _ hdraft]
    exact .refl _
  rw [onForest_runOn] at hdraft
  obtain ⟨hok, rfl⟩ := Prod.mk.inj hdraft
  obtain ⟨forest, hrun⟩ := exists_after hok
  rw [hrun] at hr
  obtain ⟨kind, literal, _, _, rfl, rfl⟩ := Forest.createDraft_ok.mp hrun
  rcases bind_error.mp hr with hattach | ⟨_, _, _, hpure⟩
  · -- the draft was made and refused, and is removed again; its number stays used
    obtain ⟨refused, ha, rfl⟩ := onFailure_error.mp hattach
    rw [attach_spares _ _ _ ha]
    exact skips_of_cleared h ((Forest.Seedling.plant h kind literal).uproot h)
  · exact absurd (congrArg Prod.fst hpure) (by simp)

end Scenario

namespace Request

variable {registry : Registry} {scenario : Scenario} {request : Request} {fault : Rejection}

/-- A refused request that has not built anything leaves the scenario as it was. -/
theorem after_of_refusal? (hb : ¬ request.BuildsFirst)
    (hr : request.refusal? registry scenario = some fault) :
    request.after registry scenario = scenario := by
  -- an edit that spares the scenario has not changed it when it fails
  have hsame : ∀ {α : Type} {edit : Scenario.Edit α}, Spares edit →
      edit.error? scenario = some fault → (edit.runOn scenario).2 = scenario := by
    intro α edit hs he
    obtain ⟨after, hrun⟩ := error?_eq_some.mp he
    rw [hrun]
    exact hs _ _ _ hrun
  cases request with
  | addTrigger name => exact absurd hr (by simp [refusal?, error?, Scenario.addTrigger_runOn])
  | deleteTrigger id => exact hsame Scenario.deleteTrigger_spares hr
  | renameTrigger id name => exact hsame Scenario.updateTrigger_spares hr
  | setTriggerEnabled id enabled => exact hsame Scenario.updateTrigger_spares hr
  | moveTrigger id target => exact hsame Scenario.moveTrigger_spares hr
  | addDraft id clause variant => exact absurd trivial hb
  | attach id clause root => exact hsame Scenario.attach_spares hr
  | deleteNode id => exact hsame Scenario.deleteNode_spares hr
  | moveNode id target => exact hsame Scenario.moveNode_spares hr
  | createNode variant arguments literal =>
      exact hsame (Scenario.onForest_spares Forest.createNode_spares) hr
  | createDraft variant => exact hsame (Scenario.onForest_spares Forest.createDraft_spares) hr
  | insertTree tree => exact absurd trivial hb
  | setArgument node param child =>
      exact hsame (Scenario.onForest_spares Forest.setArgument_spares) hr
  | clearArgument node param =>
      exact hsame (Scenario.onForest_spares Forest.clearArgument_spares) hr
  | setLiteral node literal => exact hsame (Scenario.onForest_spares Forest.setLiteral_spares) hr
  | addRegion name bounds => exact hsame Scenario.sure_pushRegion.spares hr
  | addFreshRegion name bits bounds => exact hsame Scenario.sure_pushRegion.spares hr
  | addSharedRegion name stableId bounds => exact hsame Scenario.addSharedRegion_spares hr
  | renameRegion id name => exact hsame Scenario.renameRegion_spares hr
  | removeRegion id => exact hsame Scenario.removeRegion_spares hr
  | decode services text => exact absurd hr (by simp [refusal?])
  | importTrigger services text => exact absurd hr (by simp [refusal?])

/-- **A refused request leaves everything as it was**, apart from numbers of nodes that were
given out to nodes that are gone. -/
theorem skips_of_refusal? (h : Forest.Linked scenario.forest)
    (hr : request.refusal? registry scenario = some fault) :
    Scenario.Skips scenario (request.after registry scenario) := by
  cases request with
  | insertTree tree =>
      obtain ⟨after, hrun⟩ := error?_eq_some.mp hr
      have hskips := Scenario.insertTree_error h hrun
      simp only [Request.after, hrun]
      exact hskips
  | addDraft id clause variant =>
      obtain ⟨after, hrun⟩ := error?_eq_some.mp hr
      have hskips := Scenario.addDraft_error h hrun
      simp only [Request.after, hrun]
      exact hskips
  | _ =>
      rw [after_of_refusal? (by simp [BuildsFirst]) hr]
      exact .refl _

end Request

namespace Scenario

variable {registry : Registry} {scenario : Scenario} {request : Request} {fault : Rejection}

/-- What a refused request leaves behind. -/
structure Unmoved (registry : Registry) (scenario : Scenario) (request : Request) : Prop where
  /-- Only the number of the next node may have advanced. -/
  skips : Skips scenario (request.after registry scenario)
  /-- Not even that, if the request checks before it acts. -/
  same : ¬ request.BuildsFirst → request.after registry scenario = scenario
  /-- What was offered as a child is held as it was. -/
  offered : ∀ id ∈ request.offered,
    (request.after registry scenario).forest.get? id = scenario.forest.get? id
  /-- What was in the slot is in it still, with everything below it. -/
  slot : ∀ {node param child holder previous}, request = .setArgument node param child →
    scenario.forest.get? node = some holder → holder.argument? param = some previous →
    (request.after registry scenario).forest.get? node = some holder ∧
      (request.after registry scenario).forest.subtree previous
        = scenario.forest.subtree previous ∧
      (request.after registry scenario).forest.snapshot previous
        = scenario.forest.snapshot previous ∧
      ∀ id ∈ scenario.forest.subtree previous,
        (request.after registry scenario).forest.get? id = scenario.forest.get? id

/-- **A reachable script is not moved by a request that is refused.** -/
theorem Reached.unmoved (h : Reached scenario)
    (hr : request.refusal? registry scenario = some fault) : Unmoved registry scenario request where
  skips := Request.skips_of_refusal? h.owned.linked hr
  same hb := Request.after_of_refusal? hb hr
  offered := by
    intro id _
    obtain ⟨next, _, he⟩ := Request.skips_of_refusal? h.owned.linked hr
    rw [he]
    rfl
  slot := by
    intro node param child holder previous he hn _
    have hsame : request.after registry scenario = scenario :=
      Request.after_of_refusal? (by rw [he]; exact id) hr
    rw [hsame]
    exact ⟨hn, rfl, rfl, fun _ _ => rfl⟩

/-- An action in the slot of an action that wants a text. -/
def misfit : NodeTree := ⟨"Say", none, [("text", ⟨"Say", none, []⟩)]⟩

/-- The misfit is refused when both of its nodes are there; a text that is in a slot already is
refused for that very slot. -/
theorem unmoved_greeting :
    (Request.insertTree misfit).refusal? Greeting.variants Greeting.script
        = some (.argumentType "Say" "text" .text .unit) ∧
      Unmoved Greeting.variants Greeting.script (.insertTree misfit) ∧
      ((Request.insertTree misfit).after Greeting.variants Greeting.script).forest.nextId
        = Greeting.script.forest.nextId + 2 ∧
      (Request.setArgument ⟨0⟩ "text" ⟨1⟩).refusal? Greeting.variants Greeting.script
        = some (.alreadyBound ⟨1⟩) ∧
      Unmoved Greeting.variants Greeting.script (.setArgument ⟨0⟩ "text" ⟨1⟩) := by
  have hreached := Greeting.script_reachable.reached
  have hmisfit : (Request.insertTree misfit).refusal? Greeting.variants Greeting.script
      = some (.argumentType "Say" "text" .text .unit) := by decide +kernel
  have hbound : (Request.setArgument ⟨0⟩ "text" ⟨1⟩).refusal? Greeting.variants Greeting.script
      = some (.alreadyBound ⟨1⟩) := by decide +kernel
  exact ⟨hmisfit, hreached.unmoved hmisfit, by decide +kernel, hbound, hreached.unmoved hbound⟩

end Scenario

end Rulebook

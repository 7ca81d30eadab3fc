import Rulebook.Proofs.Forest.Locality
import Rulebook.Proofs.Scenario.Reachable

/-!
# Edits of nodes are edits of trees

Nodes refer to each other by number, and an edit goes straight to the node that
it is about. What is seen of it from the roots is nevertheless one tree, changed
at one path: the path at which the node stands. The triggers, their lists and
the regions have no part in it.
-/

namespace Rulebook

namespace Scenario

open Attempt

open Forest (Linked TreeEdit)

variable {registry : Registry} {scenario after : Scenario} {root x child : NodeId} {path : Path}
  {param : String}

/-- The scenario is what it was but for an edit of one tree. -/
def EditsTree (scenario : Scenario) (root : NodeId) (path : Path) (f : NodeTree → NodeTree)
    (gone taken : Option NodeId) (after : Scenario) : Prop :=
  ∃ forest, after = { scenario with forest } ∧
    TreeEdit scenario.forest root path f gone taken forest

/-- What the edits of a node do that stands at a path below a root. -/
structure EditsAt (registry : Registry) (scenario : Scenario) (root : NodeId) (path : Path)
    (x : NodeId) : Prop where
  /-- The literal is put at the path. -/
  literal : ∀ {literal after}, (setLiteral x literal).runOn scenario = (.ok (), after) →
    EditsTree scenario root path (·.withLiteral literal) none none after
  /-- The tree of the child is put into the slot of the node at the path, and what was in the
  slot is gone. -/
  argument : ∀ {param child after},
    (setArgument registry x param child).runOn scenario = (.ok (), after) →
    ∃ argument, scenario.forest.snapshot child = some argument ∧
      EditsTree scenario root path (·.withArgument param argument)
        (scenario.forest.follow? [param] x) (some child) after
  /-- The slot of the node at the path is emptied, and what was in it is gone. -/
  cleared : ∀ {param found after},
    (clearArgument registry x param).runOn scenario = (.ok found, after) →
    EditsTree scenario root path (·.withoutArgument param)
      (scenario.forest.follow? [param] x) none after
  /-- The same happens when what is in the slot is deleted. -/
  deleted : ∀ {param child count after}, scenario.forest.follow? [param] x = some child →
    (deleteNode child).runOn scenario = (.ok count, after) →
    EditsTree scenario root path (·.withoutArgument param) (some child) none after

theorem setLiteral_editsTree (h : Linked scenario.forest) (hr : scenario.forest.IsRoot root)
    (hp : scenario.forest.follow? path root = some x) {literal : Literal}
    (hrun : (setLiteral x literal).runOn scenario = (.ok (), after)) :
    EditsTree scenario root path (·.withLiteral literal) none none after := by
  obtain ⟨forest, hset, rfl⟩ := onForest_ok.mp hrun
  obtain ⟨node, hn, _, _, rfl⟩ := Forest.setLiteral_ok.mp hset
  refine ⟨_, rfl, (Forest.changedAt_relabel h literal).treeEdit h hr hp fun part hs => ?_⟩
  exact Forest.shows_relabel h hs

theorem setArgument_editsTree (h : Linked scenario.forest) (hr : scenario.forest.IsRoot root)
    (hp : scenario.forest.follow? path root = some x)
    (hrun : (setArgument registry x param child).runOn scenario = (.ok (), after)) :
    ∃ argument, scenario.forest.snapshot child = some argument ∧
      EditsTree scenario root path (·.withArgument param argument)
        (scenario.forest.follow? [param] x) (some child) after := by
  obtain ⟨forest, hset, rfl⟩ := onForest_ok.mp hrun
  obtain ⟨node, variant, hn, _, hbind, hlineage, rfl⟩ := Forest.setArgument_ok.mp hset
  obtain ⟨slot, inner, _, hi, hd, _⟩ := Forest.checkBinding_ok.mp hbind
  have hnb : ¬ scenario.forest.Below child x := fun hb =>
    hlineage ((Forest.mem_lineage h hn).mpr hb)
  obtain ⟨argument, ha⟩ := h.exists_shows hi
  refine ⟨argument, ha, _, rfl, ?_⟩
  rw [Forest.follow?_slot hn]
  refine (Forest.changedAt_fill param h hn hi hd hnb).treeEdit h hr hp fun part hs => ?_
  exact Forest.shows_fill h hn hi hd hnb hs (h.snapshot_iff.mp ha)

/-- Emptying a slot, whether one starts from the slot or from what is in it. -/
theorem vacate_editsTree (param : String) (h : Linked scenario.forest)
    (hr : scenario.forest.IsRoot root) (hp : scenario.forest.follow? path root = some x)
    {node : Node} (hn : scenario.forest.get? x = some node) :
    EditsTree scenario root path (·.withoutArgument param) (scenario.forest.follow? [param] x)
      none { scenario with forest := scenario.forest.vacate x param } := by
  refine ⟨_, rfl, ?_⟩
  rw [Forest.follow?_slot hn]
  refine (Forest.changedAt_vacate param h hn).treeEdit h hr hp fun part hs => ?_
  exact Forest.shows_vacate h hn hs

theorem clearArgument_editsTree (h : Linked scenario.forest) (hr : scenario.forest.IsRoot root)
    (hp : scenario.forest.follow? path root = some x) {found : Bool}
    (hrun : (clearArgument registry x param).runOn scenario = (.ok found, after)) :
    EditsTree scenario root path (·.withoutArgument param) (scenario.forest.follow? [param] x)
      none after := by
  obtain ⟨forest, hclear, rfl⟩ := onForest_ok.mp hrun
  obtain ⟨node, variant, hn, _, _, ⟨ha, _, rfl⟩ | ⟨old, ha, _, rfl⟩⟩ :=
    Forest.clearArgument_ok.mp hclear
  · have hv := vacate_editsTree param h hr hp hn
    rw [Forest.vacate_of_empty hn ha] at hv
    exact hv
  · rw [← Forest.vacate_eq_removeSubtree h hn ha]
    exact vacate_editsTree _ h hr hp hn

/-- What is in a slot stands on no list. -/
theorem deleteNode_ok_of_held (h : Linked scenario.forest) (hh : scenario.forest.Holds x child)
    {count : Nat} (hrun : (deleteNode child).runOn scenario = (.ok count, after)) :
    after = { scenario with forest := scenario.forest.removeSubtree child } := by
  obtain ⟨inner, hi, ho⟩ := h.holds_iff.mp hh
  unfold deleteNode at hrun
  simp only [bind_ok, runOn_get, check_ok] at hrun
  obtain ⟨_, _, ⟨⟩, node, _, ⟨hn, rfl⟩, _, _, hunlist, hremove⟩ := hrun
  have hn := Forest.require_ok.mp hn
  rw [hi] at hn
  cases hn
  rw [ho] at hunlist
  obtain ⟨_, rfl⟩ := pure_ok.mp hunlist
  obtain ⟨forest, hrun, rfl⟩ := onForest_ok.mp hremove
  cases hrun
  rfl

theorem deleteNode_editsTree (h : Linked scenario.forest) (hr : scenario.forest.IsRoot root)
    (hp : scenario.forest.follow? path root = some x)
    (hc : scenario.forest.follow? [param] x = some child) {count : Nat}
    (hrun : (deleteNode child).runOn scenario = (.ok count, after)) :
    EditsTree scenario root path (·.withoutArgument param) (some child) none after := by
  obtain ⟨node, _, hn, ha, ⟨⟩⟩ := Forest.follow?_cons.mp hc
  rw [deleteNode_ok_of_held h (Forest.holds_of_argument? hn ha) hrun,
    ← Forest.vacate_eq_removeSubtree h hn ha, ← hc]
  exact vacate_editsTree _ h hr hp hn

/-- Every node has its place in one tree, and every edit of the node is an edit of that tree at
that place. -/
structure LocalEdits (registry : Registry) (scenario : Scenario) : Prop where
  place : ∀ {x node}, scenario.forest.get? x = some node →
    ∃! place : NodeId × Path,
      scenario.forest.IsRoot place.1 ∧ scenario.forest.follow? place.2 place.1 = some x
  edits : ∀ {root path x}, scenario.forest.IsRoot root →
    scenario.forest.follow? path root = some x → EditsAt registry scenario root path x

/-- **In a reachable script edits of nodes are edits of trees**, whatever variants there are. -/
theorem Reached.localEdits (h : Reached scenario) (registry : Registry) :
    LocalEdits registry scenario where
  place hn := h.owned.linked.existsUnique_place hn
  edits hr hp :=
    { literal := setLiteral_editsTree h.owned.linked hr hp
      argument := setArgument_editsTree h.owned.linked hr hp
      cleared := clearArgument_editsTree h.owned.linked hr hp
      deleted := fun hc hrun => deleteNode_editsTree h.owned.linked hr hp hc hrun }

/-- In the greeting the text stands below the action, which its trigger owns. Replacing the text
shows in the tree of the action. -/
theorem localEdits_greeting :
    LocalEdits Greeting.variants Greeting.script ∧ Greeting.script.forest.IsRoot ⟨0⟩ ∧
      Greeting.script.forest.follow? ["text"] ⟨0⟩ = some ⟨1⟩ ∧
      ((Request.setLiteral ⟨1⟩ (.text "ho")).after Greeting.variants
          Greeting.script).forest.snapshot ⟨0⟩
        = some ⟨"Say", none, [("text", ⟨"Word", some (.text "ho"), []⟩)]⟩ := by
  have hroot : Greeting.script.forest.HeldBy ⟨0⟩ ⟨0⟩ := ⟨_, rfl, by decide⟩
  obtain ⟨node, hn, ho⟩ := hroot
  exact ⟨Greeting.script_reachable.reached.localEdits Greeting.variants,
    ⟨node, hn, Or.inr ⟨_, ho⟩⟩, by decide, by decide +kernel⟩

end Scenario

end Rulebook

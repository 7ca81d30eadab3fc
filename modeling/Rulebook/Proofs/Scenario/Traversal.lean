import Rulebook.Proofs.Forest.Traversal
import Rulebook.Proofs.Scenario.Bystanders

/-!
# What is listed, copied and removed

However one goes through what is below a node, one comes by the same nodes. An
editor lists them, makes a tree of them and removes them, with the node or with
the trigger that the node stands on a list of. What is not below the node does
not notice, but for the slot or the list that the node was in.
-/

namespace Rulebook

open Attempt

namespace Forest

variable {forest : Forest} {id : NodeId}

/-- All ways through what is below a node come by the same nodes. -/
structure Walked (forest : Forest) (id : NodeId) : Prop where
  /-- The walk with a stack ends, and comes by the nodes in the order in which they are listed. -/
  visited : ∀ order, forest.Visits [id] order ↔ order = forest.subtree id
  /-- Where there is no node, nothing is listed. -/
  absent : forest.get? id = none → forest.subtree id = []
  /-- A node comes first, then slot by slot what is below it. -/
  present : ∀ node, forest.get? id = some node →
    forest.subtree id = id :: node.children.flatMap forest.subtree
  nodup : (forest.subtree id).Nodup
  /-- What is listed is what slots lead to. -/
  members : ∀ x, x ∈ forest.subtree id ↔
    (∃ node, forest.get? id = some node) ∧ forest.Below id x
  /-- There is a tree of a node and of nothing else. -/
  shown : (∃ tree, forest.snapshot id = some tree) ↔ ∃ node, forest.get? id = some node
  /-- It is made of the trees of what is in the slots of the node. -/
  copied : ∀ tree, forest.snapshot id = some tree ↔
    ∃ node filled, forest.get? id = some node ∧
      List.Forall₂ (fun binding pair => binding.param = pair.1 ∧
        forest.snapshot binding.child = some pair.2) node.arguments filled ∧
      tree = ⟨node.variant, node.literal, NodeTree.slots filled⟩
  /-- It has as many nodes as are listed. -/
  size : ∀ tree, forest.snapshot id = some tree → tree.size = (forest.subtree id).length
  /-- The walk that removes a node ends as well, having taken away as many nodes. -/
  swept : ∀ node, forest.get? id = some node → ∀ left count,
    Sweeps [id] (forest.unhook id node.owner).nodes left count ↔
      left = (forest.removeSubtree id).nodes ∧ count = (forest.subtree id).length
  /-- Removal says how many these are. -/
  removed : (remove id).runOn forest = (.ok (forest.subtree id).length, forest.removeSubtree id)
  /-- It removes the nodes that are listed and leaves the others as they are. -/
  without : Without forest id (forest.removeSubtree id)

theorem Linked.walked (h : Linked forest) (id : NodeId) : Walked forest id where
  visited _ := h.visits_iff
  absent := subtree_absent
  present _ := h.subtree_cons
  nodup := h.nodup_subtree id
  members _ := h.mem_subtree
  shown := by
    constructor
    · intro hx
      obtain ⟨tree, ht⟩ := hx
      exact (h.snapshot_iff.mp ht).exists_node
    · intro hx
      obtain ⟨node, hid⟩ := hx
      exact h.exists_shows hid
  copied tree := by
    simp only [h.snapshot_iff]
    exact Shows.iff_slots
  size _ ht := h.size_of_shows (h.snapshot_iff.mp ht)
  swept _ hid _ _ := h.sweeps_iff hid
  removed := h.remove_runOn id
  without := h.without id

end Forest

namespace Scenario

open Forest (Linked)

variable {scenario : Scenario} {id : NodeId} {t : TriggerId} {node : Node} {trigger : Trigger}

/-! ## Deleting a node -/

/-- The second list of triggers is the first but for one entry on one list of one trigger, which
is the root, and which stands on no list any more. -/
def Unlisted (triggers : List Trigger) (t : TriggerId) (root : NodeId) (after : List Trigger) :
    Prop :=
  ∃ earlier trigger later clause front back,
    triggers = earlier ++ trigger :: later ∧ trigger.id = t ∧
      trigger.roots clause = front ++ root :: back ∧
      after = earlier ++ (trigger.mapRoots clause fun _ => front ++ back) :: later ∧
      ∀ other ∈ after, root ∉ other.allRoots

theorem deleteNode_absent (hid : scenario.forest.get? id = none) :
    (deleteNode id).runOn scenario = (.error (.unknownNode id), scenario) := by
  have hrequire : scenario.forest.require id = .error (.unknownNode id) := by
    rw [Forest.require, hid]
  rw [deleteNode, runOn_get_bind, runOn_refused hrequire]

/-- Once the root is off its list, the node goes. -/
theorem deleteNode_runOn {triggers : List Trigger} (h : Linked scenario.forest)
    (hid : scenario.forest.get? id = some node)
    (hu : (unlist node.owner id).runOn scenario = (.ok (), { scenario with triggers })) :
    (deleteNode id).runOn scenario = (.ok (scenario.forest.subtree id).length,
      { scenario with forest := scenario.forest.removeSubtree id, triggers }) := by
  have hrequire : scenario.forest.require id = .ok node := Forest.require_ok.mpr hid
  rw [deleteNode, runOn_get_bind, runOn_passed hrequire, runOn_bind, hu]
  show (onForest (Forest.remove id)).runOn { scenario with triggers } = _
  rw [onForest_runOn, h.remove_runOn]

/-- Deleting a node that no list holds leaves the triggers alone. -/
theorem Owned.deleteNode_unheld (h : Owned scenario) (hid : scenario.forest.get? id = some node)
    (ho : ∀ t, node.owner ≠ .trigger t) :
    (deleteNode id).runOn scenario = (.ok (scenario.forest.subtree id).length,
      { scenario with forest := scenario.forest.removeSubtree id }) := by
  have hunlist : (unlist node.owner id).runOn scenario = (.ok (), scenario) := by
    cases hown : node.owner with
    | trigger t => exact absurd hown (ho t)
    | detached => rfl
    | argument parent => rfl
  exact deleteNode_runOn h.linked hid hunlist

/-- Deleting a root takes its entry off the list that it stands on. -/
theorem Owned.deleteNode_root (h : Owned scenario) (hid : scenario.forest.get? id = some node)
    (ho : node.owner = .trigger t) :
    ∃ triggers, Unlisted scenario.triggers t id triggers ∧
      (deleteNode id).runOn scenario = (.ok (scenario.forest.subtree id).length,
        { scenario with forest := scenario.forest.removeSubtree id, triggers }) := by
  obtain ⟨earlier, trigger, later, clause, index, hsplit, ht, hget, hunlist⟩ :=
    unlist_split h hid ho
  obtain ⟨hlt, hroot⟩ := List.getElem?_eq_some_iff.mp hget
  obtain ⟨front, root, back, hroots, rfl⟩ := exists_split hlt
  obtain rfl : root = id := by simpa [hroots] using hroot
  have hmap : trigger.mapRoots clause (fun roots => roots.eraseIdx front.length)
      = trigger.mapRoots clause fun _ => front ++ back := by
    refine Trigger.mapRoots_congr ?_
    rw [hroots, eraseIdx_split]
  refine ⟨_, ⟨earlier, trigger, later, clause, front, back, hsplit, ht, hroots, by rw [hmap], ?_⟩,
    deleteNode_runOn h.linked hid hunlist⟩
  -- the root stood on the lists once, and that entry is gone
  have hperm := listings_eraseIdx_perm hsplit hget
  have honce := (hperm.map Listing.root).nodup_iff.mp h.once
  intro other hother hm
  obtain ⟨clause, hc⟩ := Trigger.mem_allRoots.mp hm
  refine (List.nodup_cons.mp honce).1 (List.mem_map.mpr ⟨⟨other.id, clause, _⟩, ?_, rfl⟩)
  exact List.mem_flatMap.mpr ⟨other, hother, Trigger.mem_listings.mpr ⟨rfl, hc⟩⟩

/-! ## Deleting a trigger -/

/-- The second forest is the first without several trees, each of which has gone as a whole. -/
structure WithoutAll (forest : Forest) (roots : List NodeId) (after : Forest) : Prop where
  /-- No node is in two of the trees. -/
  nodup : (roots.flatMap forest.subtree).Nodup
  /-- The nodes of the trees are gone. -/
  gone : ∀ x ∈ roots.flatMap forest.subtree, after.get? x = none
  /-- All others are what they were. -/
  same : ∀ x, x ∉ roots.flatMap forest.subtree → after.get? x = forest.get? x
  nextId : after.nextId = forest.nextId

theorem nodup_flatMap_subtree {forest : Forest} (h : Linked forest) {roots : List NodeId}
    (hn : roots.Nodup) (hroots : ∀ root ∈ roots, forest.IsRoot root) :
    (roots.flatMap forest.subtree).Nodup := by
  refine List.nodup_flatMap.mpr ⟨fun root _ => h.nodup_subtree root, ?_⟩
  refine hn.imp_of_mem fun {root other} hr ho hne x hx hy => hne ?_
  exact (hroots root hr).unique h (hroots other ho) (h.mem_subtree.mp hx).2 (h.mem_subtree.mp hy).2

/-- The removal of one root is not seen from another. -/
theorem get?_removeSubtree_other {forest : Forest} (h : Linked forest) {root other : NodeId}
    (hr : forest.IsRoot root) (ho : forest.IsRoot other) (hne : root ≠ other) :
    ∀ x, forest.Below other x → (forest.removeSubtree root).get? x = forest.get? x :=
  fun x hx => Forest.get?_removeSubtree_of_apart h (hr.not_holds h x) fun hb =>
    hne (hr.unique h ho hb hx)

/-- **Removing several roots removes the trees that they are the roots of.** -/
theorem removeTrees_removes {roots : List NodeId} : ∀ {forest : Forest}, Linked forest →
    roots.Nodup → (∀ root ∈ roots, forest.IsRoot root) →
    WithoutAll forest roots (removeTrees forest roots) ∧
      (removeTrees forest roots).size + (roots.flatMap forest.subtree).length = forest.size := by
  induction roots with
  | nil => exact fun _ _ _ => ⟨⟨List.nodup_nil, by simp, fun _ _ => rfl, rfl⟩, rfl⟩
  | cons root rest ih =>
      intro forest h hn hroots
      have hall := nodup_flatMap_subtree h hn hroots
      obtain ⟨hnew, hn⟩ := List.nodup_cons.mp hn
      obtain ⟨hroot, hothers⟩ := List.forall_mem_cons.mp hroots
      have hwithout := h.without root
      have hlinked := Forest.linked_removeSubtree h root
      have hsame : ∀ x, x ∉ forest.subtree root →
          (forest.removeSubtree root).get? x = forest.get? x := fun x hx =>
        hwithout.same x hx fun node hid => hroot.not_held hid x
      -- the trees of the other roots are not touched
      have happ : ∀ other ∈ rest, ∀ x, forest.Below other x →
          (forest.removeSubtree root).get? x = forest.get? x := fun other ho =>
        get?_removeSubtree_other h hroot (hothers other ho) fun he => hnew (he ▸ ho)
      have hkept : ∀ other ∈ rest, (forest.removeSubtree root).IsRoot other := by
        intro other ho
        obtain ⟨node, hid, hown⟩ := hothers other ho
        exact ⟨node, (happ other ho other .refl).trans hid, hown⟩
      have hlists : rest.flatMap (forest.removeSubtree root).subtree
          = rest.flatMap forest.subtree := by
        refine List.flatMap_congr fun other ho => ?_
        obtain ⟨node, hid, _⟩ := hothers other ho
        exact h.subtree_congr hlinked hid (happ other ho)
      obtain ⟨hafter, hsize⟩ := ih hlinked hn hkept
      rw [hlists] at hsize
      have hgone := hafter.gone
      have hrest := hafter.same
      rw [hlists] at hgone hrest
      refine ⟨⟨hall, fun x hx => ?_, fun x hx => ?_, hafter.nextId.trans hwithout.nextId⟩, ?_⟩
      · by_cases hin : x ∈ rest.flatMap forest.subtree
        · exact hgone x hin
        · refine (hrest x hin).trans (hwithout.gone x ?_)
          exact (List.mem_append.mp hx).resolve_right hin
      · rw [List.flatMap_cons, List.mem_append, not_or] at hx
        exact (hrest x hx.2).trans (hsame x hx.1)
      · rw [List.flatMap_cons, List.length_append, ← h.size_removeSubtree root, ← hsize,
          Nat.add_assoc, Nat.add_comm (rest.flatMap _).length]
        rfl

theorem Owned.deleteTrigger_runOn (h : Owned scenario) (ht : trigger ∈ scenario.triggers) :
    ∃ earlier later forest, scenario.triggers = earlier ++ trigger :: later ∧
      WithoutAll scenario.forest trigger.allRoots forest ∧
      (deleteTrigger trigger.id).runOn scenario =
        (.ok (trigger.allRoots.flatMap scenario.forest.subtree).length,
          { scenario with forest, triggers := earlier ++ later }) := by
  obtain ⟨earlier, later, hsplit, hdelete⟩ := h.exists_deleteTrigger ht
  obtain ⟨hwithout, hsize⟩ := removeTrees_removes h.linked (h.nodup_allRoots ht) fun root hr =>
    h.isRoot ht hr
  refine ⟨earlier, later, _, hsplit, hwithout, hdelete.trans ?_⟩
  rw [← hsize, Nat.add_sub_cancel_left]

theorem deleteTrigger_absent (ht : ∀ trigger ∈ scenario.triggers, trigger.id ≠ t) :
    (deleteTrigger t).runOn scenario = (.error (.unknownTrigger t), scenario) := by
  have hnone : scenario.triggerIndex? t = none :=
    List.findIdx?_eq_none_iff.mpr fun trigger hm => by simp [ht trigger hm]
  have hrequire : scenario.requireTrigger t = .error (.unknownTrigger t) := by
    rw [requireTrigger, hnone]
  rw [deleteTrigger, runOn_get_bind, runOn_refused hrequire]

/-! ## Editors -/

/-- What an editor lists, copies and removes with a node, and with a trigger. -/
structure Traversal (scenario : Scenario) : Prop where
  walked : ∀ id, scenario.forest.Walked id
  noNode : ∀ {id}, scenario.forest.get? id = none →
    (deleteNode id).runOn scenario = (.error (.unknownNode id), scenario)
  /-- A node that stands on no list goes with the nodes that are listed below it. -/
  unheld : ∀ {id node}, scenario.forest.get? id = some node → (∀ t, node.owner ≠ .trigger t) →
    (deleteNode id).runOn scenario = (.ok (scenario.forest.subtree id).length,
      { scenario with forest := scenario.forest.removeSubtree id })
  /-- So does a root, and with it goes its entry on a list. -/
  root : ∀ {id node t}, scenario.forest.get? id = some node → node.owner = .trigger t →
    ∃ triggers, Unlisted scenario.triggers t id triggers ∧
      (deleteNode id).runOn scenario = (.ok (scenario.forest.subtree id).length,
        { scenario with forest := scenario.forest.removeSubtree id, triggers })
  noTrigger : ∀ {t}, (∀ trigger ∈ scenario.triggers, trigger.id ≠ t) →
    (deleteTrigger t).runOn scenario = (.error (.unknownTrigger t), scenario)
  /-- A trigger goes with the nodes that are listed below the roots on its lists. -/
  trigger : ∀ {trigger}, trigger ∈ scenario.triggers →
    ∃ earlier later forest, scenario.triggers = earlier ++ trigger :: later ∧
      WithoutAll scenario.forest trigger.allRoots forest ∧
      (deleteTrigger trigger.id).runOn scenario =
        (.ok (trigger.allRoots.flatMap scenario.forest.subtree).length,
          { scenario with forest, triggers := earlier ++ later })

/-- **In a reachable script listing, copying and removing agree** on what is below a node. -/
theorem Reached.traversal (h : Reached scenario) : Traversal scenario where
  walked := h.owned.linked.walked
  noNode := deleteNode_absent
  unheld := h.owned.deleteNode_unheld
  root := h.owned.deleteNode_root
  noTrigger := deleteTrigger_absent
  trigger := h.owned.deleteTrigger_runOn

/-- In the greeting the text is listed after the action, and both go with the trigger. -/
theorem traversal_greeting :
    Traversal Greeting.script ∧ Greeting.script.forest.subtree ⟨0⟩ = [⟨0⟩, ⟨1⟩] ∧
      ((deleteNode ⟨1⟩).runOn Greeting.script).1 = .ok 1 ∧
      ((deleteTrigger ⟨0⟩).runOn Greeting.script).1 = .ok 2 ∧
      (Request.deleteTrigger ⟨0⟩ |>.after Greeting.variants Greeting.script).forest.size = 0 :=
  ⟨Greeting.script_reachable.reached.traversal, by decide +kernel, by decide +kernel,
    by decide +kernel, by decide +kernel⟩

end Scenario

end Rulebook

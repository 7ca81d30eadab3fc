import Rulebook.Proofs.Forest.Growth
import Rulebook.Proofs.Scenario.Conformance

/-!
# Inserting and taking a snapshot

Inserting a tree and taking the snapshot of a node are inverse to each other.
What is inserted is shown by the new root. What a node of a reachable script
shows fits, since the node and everything below it conform, so it can be
inserted, there or into any other script that knows the same variants.
-/

namespace Rulebook

namespace Forest

variable {registry : Registry} {forest : Forest} {id : NodeId} {tree : NodeTree}

/-- **What conforming nodes show fits.** -/
theorem Conforms.fits (h : Conforms registry forest) (hl : Linked forest)
    (hs : Shows forest id tree) : tree.Fits registry := by
  induction tree using NodeTree.slot_induction generalizing id with
  | node variant literal arguments ih =>
      obtain ⟨node, hn⟩ := hs.exists_node
      obtain ⟨rfl, rfl⟩ := Prod.mk.inj (hs.top hn)
      obtain ⟨definition, hv, _, _, hlit⟩ := h.typed hn
      -- what the tree has in a slot is shown by what the node has there
      have hslot : ∀ slot ∈ arguments, ∃ child,
          node.argument? slot.1 = some child ∧ Shows forest child slot.2 := fun slot hm =>
        (hs.lookup hl hn).mp ((NodeTree.mem_iff_lookup (hs.ordered hl).slots).mp hm)
      refine .node hv hlit (fun slot hm => ?_) fun slot hm => ?_
      · obtain ⟨child, hc, hshows⟩ := hslot slot hm
        obtain ⟨param, inner, hp, hi, ht⟩ := h.slots hn hv (Node.mem_of_argument? hc)
        obtain ⟨kind, hk, _, hres, _⟩ := h.typed hi
        obtain ⟨hvar, _⟩ := Prod.mk.inj (hshows.top hi)
        exact ⟨param, kind, hp, hvar ▸ hk, ht.symm.trans hres⟩
      · obtain ⟨child, _, hshows⟩ := hslot slot hm
        exact ih slot hm hshows

end Forest

namespace Scenario

variable {registry : Registry} {scenario after : Scenario} {root : NodeId} {tree : NodeTree}

/-- A tree has been added, below a free root. -/
structure Adds (scenario : Scenario) (root : NodeId) (tree : NodeTree) (after : Scenario) :
    Prop where
  /-- Triggers and regions are what they were. -/
  rest : after = { scenario with forest := after.forest }
  /-- So are the nodes that were there. -/
  old : ∀ {id node}, scenario.forest.get? id = some node → after.forest.get? id = some node
  free : ∃ node, after.forest.get? root = some node ∧ node.owner = .detached
  shows : after.forest.snapshot root = some tree
  /-- What lies below the root is what was not there before. -/
  below : ∀ id, after.forest.Below root id ↔
    scenario.forest.get? id = none ∧ ∃ node, after.forest.get? id = some node
  /-- As many numbers are taken by it as the tree has nodes. -/
  numbers : ∀ id, scenario.forest.get? id = none →
    ((∃ node, after.forest.get? id = some node) ↔
      scenario.forest.nextId ≤ id.raw ∧ id.raw < scenario.forest.nextId + tree.size)
  size : after.forest.size = scenario.forest.size + tree.size

/-- What inserting trees into a script comes to. -/
structure Inserts (registry : Registry) (scenario : Scenario) : Prop where
  /-- A tree is taken exactly if every node of it is as a registered variant says. -/
  accepts : ∀ tree, (∃ root after, (insertTree registry tree).runOn scenario = (.ok root, after)) ↔
    tree.Fits registry
  /-- Then it is added. The slots of a tree stand in the order of their names. -/
  adds : ∀ {tree root after}, tree.Ordered →
    (insertTree registry tree).runOn scenario = (.ok root, after) → Adds scenario root tree after
  /-- What a node of a reachable script shows is taken, and shown again. -/
  again : ∀ {source : Scenario}, Reachable registry source →
    ∀ {id node}, source.forest.get? id = some node →
      ∃ tree root after, source.forest.snapshot id = some tree ∧
        (insertTree registry tree).runOn scenario = (.ok root, after) ∧
        after.forest.snapshot root = some tree

theorem insertTree_accepts (h : Forest.Linked scenario.forest) (tree : NodeTree) :
    (∃ root after, (insertTree registry tree).runOn scenario = (.ok root, after)) ↔
      tree.Fits registry := by
  rw [← Forest.insertTree_accepts tree h]
  constructor
  · intro hx
    obtain ⟨root, after, hr⟩ := hx
    obtain ⟨forest, hrun, _⟩ := onForest_ok.mp hr
    exact ⟨root, forest, hrun⟩
  · intro hx
    obtain ⟨root, forest, hrun⟩ := hx
    exact ⟨root, _, onForest_ok.mpr ⟨forest, hrun, rfl⟩⟩

theorem insertTree_adds (h : Forest.Linked scenario.forest) (ho : tree.Ordered)
    (hr : (insertTree registry tree).runOn scenario = (.ok root, after)) :
    Adds scenario root tree after := by
  obtain ⟨forest, hrun, rfl⟩ := onForest_ok.mp hr
  have hgrown := Forest.insertTree_grown tree h ho hrun
  have hseedling := (Forest.insertTree_seedling tree h).1 root forest hrun
  -- a number that had no node had not been given out, or its node is gone for good
  have hnew : ∀ {id : NodeId}, scenario.forest.get? id = none →
      (∃ node, forest.get? id = some node) → scenario.forest.nextId ≤ id.raw := by
    intro id hnone hx
    obtain ⟨node, hn⟩ := hx
    by_contra hlt
    rw [hgrown.beside.old (by omega), hnone] at hn
    exact absurd hn (by simp)
  refine ⟨rfl, fun hn => (hgrown.beside.old (h.used hn)).trans hn, hgrown.free,
    hgrown.beside.linked.snapshot_iff.mpr hgrown.shows, fun id => ?_, fun id hnone => ?_,
    hgrown.size_eq h⟩
  · constructor
    · intro hb
      have hid : scenario.forest.nextId ≤ id.raw :=
        hgrown.beside.new_of_below h hseedling.fresh hb
      refine ⟨?_, ?_⟩
      · cases hn : scenario.forest.get? id with
        | none => rfl
        | some node =>
            have hused := h.used hn
            omega
      · rcases Relation.ReflTransGen.cases_tail hb with he | ⟨parent, _, hp⟩
        · obtain ⟨node, hn, _⟩ := hgrown.free
          exact ⟨node, he ▸ hn⟩
        · exact hgrown.beside.linked.exists_of_holds hp
    · intro hx
      obtain ⟨hnone, node, hn⟩ := hx
      exact hseedling.below h hn (hnew hnone ⟨node, hn⟩)
  · rw [hgrown.exists_iff h, hnone]
    simp

/-- **Trees are taken if they fit, are added as they are, and can be taken again from where they
stand.** -/
theorem Reached.inserts (h : Reached scenario) (registry : Registry) :
    Inserts registry scenario where
  accepts := insertTree_accepts h.owned.linked
  adds ho hr := insertTree_adds h.owned.linked ho hr
  again := by
    intro source hsource id node hn
    have hl := hsource.owned.linked
    obtain ⟨tree, ht⟩ := hl.exists_shows hn
    have hshows := hl.snapshot_iff.mp ht
    have hfits := hsource.conforms.forest.fits hl hshows
    obtain ⟨root, after, hr⟩ := (insertTree_accepts h.owned.linked tree).mpr hfits
    exact ⟨tree, root, after, ht, hr,
      (insertTree_adds h.owned.linked (hshows.ordered hl) hr).shows⟩

/-- The action of the greeting, inserted into an empty script. -/
theorem inserts_greeting :
    Inserts Greeting.variants Greeting.script ∧ Inserts Greeting.variants (.empty "") ∧
      (Greeting.script.forest.snapshot ⟨0⟩).bind (fun tree =>
          ((Request.insertTree tree).after Greeting.variants (.empty "")).forest.snapshot ⟨0⟩)
        = some ⟨"Say", none, [("text", ⟨"Word", some (.text "hi"), []⟩)]⟩ :=
  ⟨Greeting.script_reachable.reached.inserts _, (Reached.empty "").inserts _, by decide +kernel⟩

end Scenario

end Rulebook

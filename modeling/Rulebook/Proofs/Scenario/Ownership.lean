import Rulebook.Proofs.Scenario.Reachable

/-!
# Who holds a node

Every node of a script that requests lead to is held in exactly one way: by one
slot of one node, by one place on one list of one trigger, or not at all. Its
owner says which. From any node the way up along the owners comes to an end, so
the nodes are a forest whose roots are free or stand on lists.
-/

namespace Rulebook

namespace Scenario

variable {scenario : Scenario}

/-- The nodes of a script, each with all that holds it. -/
structure Ownership (scenario : Scenario) : Prop where
  /-- A node stands under its own number, and the number has been given out. -/
  numbered : ∀ {id node}, scenario.forest.get? id = some node →
    node.id = id ∧ id.raw < scenario.forest.nextId
  /-- What a slot holds exists and is owned by the holder. -/
  bound : ∀ {parent node binding}, scenario.forest.get? parent = some node →
    binding ∈ node.arguments →
    ∃ inner, scenario.forest.get? binding.child = some inner ∧ inner.owner = .argument parent
  /-- No other slot holds it, of this node or of another. -/
  boundOnce : ∀ {parent other : NodeId} {node node' : Node} {i j : Nat} {slot slot' : Binding},
    scenario.forest.get? parent = some node → node.arguments[i]? = some slot →
    scenario.forest.get? other = some node' → node'.arguments[j]? = some slot' →
    slot.child = slot'.child → parent = other ∧ i = j
  /-- It stands on no list. -/
  boundUnlisted : ∀ {parent node binding trigger}, scenario.forest.get? parent = some node →
    binding ∈ node.arguments → trigger ∈ scenario.triggers → binding.child ∉ trigger.allRoots
  /-- A node that is owned by another is in a slot of it. -/
  held : ∀ {id node parent}, scenario.forest.get? id = some node → node.owner = .argument parent →
    ∃ holder binding, scenario.forest.get? parent = some holder ∧ binding ∈ holder.arguments ∧
      binding.child = id
  /-- A node that is owned by a trigger stands once on the lists of all triggers, and that is on
  a list of its owner. -/
  rooted : ∀ {id node t}, scenario.forest.get? id = some node → node.owner = .trigger t →
    (scenario.triggers.flatMap Trigger.allRoots).count id = 1 ∧
      ∃ trigger ∈ scenario.triggers, trigger.id = t ∧ id ∈ trigger.allRoots
  /-- What stands on a list of a trigger exists and is owned by the trigger. -/
  listed : ∀ {trigger root}, trigger ∈ scenario.triggers → root ∈ trigger.allRoots →
    ∃ node, scenario.forest.get? root = some node ∧ node.owner = .trigger trigger.id
  /-- A free node is in no slot and on no list. -/
  free : ∀ {id node}, scenario.forest.get? id = some node → node.owner = .detached →
    (∀ parent holder, scenario.forest.get? parent = some holder → id ∉ holder.children) ∧
      ∀ trigger ∈ scenario.triggers, id ∉ trigger.allRoots
  /-- The way up from a node ends at one that is free or owned by a trigger. -/
  upward : ∀ {id node}, scenario.forest.get? id = some node →
    ∃ top root, (scenario.forest.lineage id).getLast? = some top ∧
      scenario.forest.get? top = some root ∧
      (root.owner = .detached ∨ ∃ t, root.owner = .trigger t)
  /-- No node lies below one that it holds. -/
  acyclic : ∀ {parent child}, scenario.forest.Holds parent child →
    ¬ scenario.forest.Below child parent

namespace Owned

/-- What stands on a list of a trigger is owned by it. -/
theorem heldBy_of_mem (h : Owned scenario) {trigger : Trigger} {root : NodeId}
    (ht : trigger ∈ scenario.triggers) (hr : root ∈ trigger.allRoots) :
    scenario.forest.HeldBy trigger.id root := by
  obtain ⟨clause, hc⟩ := Trigger.mem_allRoots.mp hr
  exact h.roots.mpr ⟨clause, mem_listings.mpr ⟨trigger, ht, rfl, hc⟩⟩

/-- What a trigger owns stands on a list of it. -/
theorem exists_of_heldBy (h : Owned scenario) {t : TriggerId} {root : NodeId}
    (hh : scenario.forest.HeldBy t root) :
    ∃ trigger ∈ scenario.triggers, trigger.id = t ∧ root ∈ trigger.allRoots := by
  obtain ⟨clause, hc⟩ := h.roots.mp hh
  obtain ⟨trigger, ht, he, hm⟩ := mem_listings.mp hc
  exact ⟨trigger, ht, he, Trigger.mem_allRoots.mpr ⟨clause, hm⟩⟩

/-- A node that is not owned by a trigger stands on no list. -/
theorem not_mem_allRoots (h : Owned scenario) {id : NodeId} {node : Node}
    (hn : scenario.forest.get? id = some node) (ho : ∀ t, node.owner ≠ .trigger t)
    {trigger : Trigger} (ht : trigger ∈ scenario.triggers) : id ∉ trigger.allRoots := by
  intro hr
  obtain ⟨n, hn', ho'⟩ := h.heldBy_of_mem ht hr
  rw [hn] at hn'
  cases hn'
  exact ho _ ho'

/-- No root stands on the lists of a trigger twice. -/
theorem nodup_allRoots (h : Owned scenario) {trigger : Trigger} (ht : trigger ∈ scenario.triggers) :
    trigger.allRoots.Nodup := by
  have hall := h.once
  rw [map_root_listings] at hall
  exact (List.nodup_flatMap.mp hall).1 trigger ht

theorem toOwnership (h : Owned scenario) : Ownership scenario where
  numbered hn := ⟨h.linked.key hn, h.linked.used hn⟩
  bound hp hb := h.linked.down hp (Node.mem_children.mpr ⟨_, hb, rfl⟩)
  boundOnce := by
    intro parent other node node' i j slot slot' hp hi ho hj he
    have hc : node.children[i]? = some slot.child := by
      rw [Node.children, List.getElem?_map, hi, Option.map_some]
    have hc' : node'.children[j]? = some slot.child := by
      rw [Node.children, List.getElem?_map, hj, Option.map_some, he]
    -- two holders of one node are the same node, which holds it once
    have hsame : parent = other := h.linked.holds_unique
      ⟨node, hp, List.mem_of_getElem? hc⟩ ⟨node', ho, List.mem_of_getElem? hc'⟩
    subst hsame
    rw [hp] at ho
    cases ho
    obtain ⟨hlt, _⟩ := List.getElem?_eq_some_iff.mp hc
    have hij : i = j := (List.getElem?_inj hlt (h.linked.nodup hp)).mp (hc.trans hc'.symm)
    exact ⟨rfl, hij⟩
  boundUnlisted := by
    intro parent node binding trigger hp hb ht
    obtain ⟨inner, hi, ho⟩ := h.linked.down hp (Node.mem_children.mpr ⟨binding, hb, rfl⟩)
    exact h.not_mem_allRoots hi (by simp [ho]) ht
  held := by
    intro id node parent hn ho
    obtain ⟨holder, hh, hc⟩ := h.linked.up hn ho
    obtain ⟨binding, hb, he⟩ := Node.mem_children.mp hc
    exact ⟨holder, binding, hh, hb, he⟩
  rooted := by
    intro id node t hn ho
    obtain ⟨trigger, ht, he, hr⟩ := h.exists_of_heldBy ⟨node, hn, ho⟩
    refine ⟨?_, trigger, ht, he, hr⟩
    have honce := h.once
    rw [map_root_listings] at honce
    exact List.count_eq_one_of_mem honce (List.mem_flatMap.mpr ⟨trigger, ht, hr⟩)
  listed ht hr := h.heldBy_of_mem ht hr
  free := by
    intro id node hn ho
    refine ⟨fun parent holder hp hc => ?_, fun trigger ht => ?_⟩
    · obtain ⟨inner, hi, hown⟩ := h.linked.down hp hc
      rw [hn] at hi
      cases hi
      rw [ho] at hown
      exact absurd hown (by simp)
    · exact h.not_mem_allRoots hn (by simp [ho]) ht
  upward := by
    intro id node hn
    obtain ⟨top, root, hl, hr, ho⟩ := Forest.lineage_ends h.linked hn
    refine ⟨top, root, hl, hr, ?_⟩
    cases hroot : root.owner with
    | detached => exact Or.inl rfl
    | trigger t => exact Or.inr ⟨t, rfl⟩
    | argument parent => exact absurd hroot (ho parent)
  acyclic hp := h.linked.not_below_of_holds hp

end Owned

/-- **Every node of a reached script is held in exactly one way**, the one that its owner says. -/
theorem Reached.ownership (h : Reached scenario) : Ownership scenario := h.owned.toOwnership

theorem ownership_greeting :
    Reached Greeting.script ∧ Ownership Greeting.script ∧
      (Greeting.script.forest.get? ⟨0⟩).map Node.owner = some (.trigger ⟨0⟩) ∧
      (Greeting.script.forest.get? ⟨1⟩).map Node.owner = some (.argument ⟨0⟩) :=
  ⟨Greeting.script_reachable.reached, Greeting.script_reachable.reached.ownership, by decide,
    by decide⟩

end Scenario

end Rulebook
